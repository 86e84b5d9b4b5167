import ModularNetServer.Http.FormBody

/-!
# What is read from a form body

`parseFormData` splits the body where the encoding has joined it but decodes nothing, so the entries it
stores are the encoded ones. They are the entries of the form only where nothing had to be encoded.
-/

namespace ModularNetServer

open Cxx

/-! ## The encoding -/

theorem formEncodeByte_safe {b : UInt8} (h : formSafe b = true) : formEncodeByte b = [b] := if_pos h

theorem formEncode_plain {s : Str} (h : FormPlain s) : formEncode s = s := by
  induction s with
  | nil => rfl
  | cons b s ih =>
    have hb : formEncodeByte b = [b] := formEncodeByte_safe (h b (by simp))
    unfold formEncode at ih ⊢
    rw [List.flatMap_cons, hb, ih fun c hc => h c (List.mem_cons_of_mem _ hc)]
    rfl

theorem hexDigit_noSeparator {n : Nat} (h : n < 16) : hexDigit n ≠ 38 ∧ hexDigit n ≠ 61 := by
  revert n
  decide

/-- No byte is encoded with a separator in it. -/
theorem formEncodeByte_noSeparator (b : UInt8) : 38 ∉ formEncodeByte b ∧ 61 ∉ formEncodeByte b := by
  have hlt : b.toNat < 256 := b.toNat_lt
  have hhigh := @hexDigit_noSeparator (b.toNat / 16) (by omega)
  have hlow := @hexDigit_noSeparator (b.toNat % 16) (by omega)
  unfold formEncodeByte
  split_ifs with hsafe
  · constructor <;> intro hmem <;> obtain rfl := List.mem_singleton.mp hmem <;> exact absurd hsafe (by decide)
  · decide
  · simp [hhigh.1.symm, hlow.1.symm, hhigh.2.symm, hlow.2.symm]

theorem formEncode_noSeparator (s : Str) : 38 ∉ formEncode s ∧ 61 ∉ formEncode s := by
  constructor <;> intro hmem <;> obtain ⟨b, -, hb⟩ := List.mem_flatMap.mp hmem
  · exact (formEncodeByte_noSeparator b).1 hb
  · exact (formEncodeByte_noSeparator b).2 hb

/-- The encoding of a byte that has to be encoded has to be encoded again. -/
theorem formEncodeByte_percent {b : UInt8} (h : formSafe b = false) :
    ∃ c ∈ formEncodeByte b, formSafe c = false := by
  unfold formEncodeByte
  rw [if_neg (by simp [h])]
  split_ifs
  · exact ⟨43, by simp, by decide⟩
  · exact ⟨37, by simp, by decide⟩

theorem formEncode_not_plain {s : Str} (h : ¬ FormPlain s) : ¬ FormPlain (formEncode s) := by
  intro hplain
  refine h fun b hb => ?_
  by_contra hencoded
  obtain ⟨c, hc, hcpercent⟩ := formEncodeByte_percent (Bool.not_eq_true _ ▸ hencoded)
  exact absurd (hplain c (List.mem_flatMap.mpr ⟨b, hb, hc⟩)) (by rw [hcpercent]; decide)

theorem formEncodeByte_length_pos (b : UInt8) : 0 < (formEncodeByte b).length := by
  unfold formEncodeByte
  split_ifs <;> simp

theorem formEncode_length_le (s : Str) : s.length ≤ (formEncode s).length := by
  induction s with
  | nil => rfl
  | cons b s ih =>
    have hb := formEncodeByte_length_pos b
    unfold formEncode at ih ⊢
    rw [List.flatMap_cons, List.length_append, List.length_cons]
    omega

theorem formEncode_append (s t : Str) : formEncode (s ++ t) = formEncode s ++ formEncode t :=
  List.flatMap_append

/-- A byte that has to be encoded takes more room when it is encoded twice. -/
theorem formEncode_formEncodeByte_length {b : UInt8} (h : formSafe b = false) :
    1 < (formEncode (formEncodeByte b)).length := by
  unfold formEncodeByte
  rw [if_neg (by simp [h])]
  split_ifs
  · decide
  · have hlen := formEncode_length_le [37, hexDigit (b.toNat / 16), hexDigit (b.toNat % 16)]
    simp only [List.length_cons, List.length_nil] at hlen
    omega

/-- So does a text with such a byte. -/
theorem formEncode_formEncode_length {s : Str} (h : ¬ FormPlain s) :
    s.length < (formEncode (formEncode s)).length := by
  obtain ⟨b, hb, hencoded⟩ : ∃ b ∈ s, formSafe b = false := by
    by_contra hno
    exact h fun b hb => by_contra fun hencoded => hno ⟨b, hb, Bool.not_eq_true _ ▸ hencoded⟩
  obtain ⟨s₁, s₂, rfl⟩ := List.append_of_mem hb
  have hb2 := formEncode_formEncodeByte_length hencoded
  have h1 := (formEncode_length_le s₁).trans (formEncode_length_le (formEncode s₁))
  have h2 := (formEncode_length_le s₂).trans (formEncode_length_le (formEncode s₂))
  have hcons : formEncode (b :: s₂) = formEncodeByte b ++ formEncode s₂ := rfl
  rw [formEncode_append, hcons, formEncode_append, formEncode_append]
  simp only [List.length_append, List.length_cons]
  omega

theorem formEncode_eq_self_iff {s : Str} : formEncode s = s ↔ FormPlain s := by
  constructor
  · intro heq
    by_contra hplain
    have hlen := formEncode_formEncode_length hplain
    rw [heq, heq] at hlen
    exact absurd hlen (Nat.lt_irrefl _)
  · exact formEncode_plain

/-! ## The entries that are stored -/

namespace HttpRequest

theorem formPair_piece (kv : Str × Str) : 38 ∉ formPair kv ∧ formPair kv ≠ [] := by
  constructor
  · intro hmem
    rcases List.mem_append.mp hmem with hmem | hmem
    · exact (formEncode_noSeparator kv.1).1 hmem
    · rcases List.mem_cons.mp hmem with heq | hmem
      · cases heq
      · exact (formEncode_noSeparator kv.2).1 hmem
  · simp [formPair]

theorem getlines_formBody (form : List (Str × Str)) : getlines 38 (formBody form) = form.map formPair := by
  refine getlines_intercalate ?_
  intro piece hpiece
  obtain ⟨kv, -, rfl⟩ := List.mem_map.mp hpiece
  exact formPair_piece kv

/-- An item is stored as it was sent. -/
theorem addPair_formPair (result : Table Str Str) (kv : Str × Str) :
    parseFormData.addPair result (formPair kv) = result.insert (formEncode kv.1) (formEncode kv.2) := by
  have hfind : Scan.find (str "=") (formPair kv) = some (formEncode kv.1).length :=
    Scan.find_singleton_iff.mpr ⟨_, _, rfl, (formEncode_noSeparator kv.1).2, rfl⟩
  have hvalue : (formPair kv).drop ((formEncode kv.1).length + 1) = formEncode kv.2 := by
    unfold formPair
    rw [← List.drop_drop, List.drop_left]
    rfl
  unfold parseFormData.addPair
  rw [hfind]
  dsimp only
  rw [hvalue]
  unfold formPair
  rw [List.take_left]

/-- A name and a value, both encoded. -/
def encodeEntry (kv : Str × Str) : Str × Str := (formEncode kv.1, formEncode kv.2)

theorem parseFormData_formBody {base : HttpBase} {form : List (Str × Str)}
    (h : base.requestBody = formBody form) :
    (parseFormData base).formData = Table.ofList (form.map encodeEntry) := by
  unfold parseFormData Table.ofList
  rw [h, getlines_formBody, List.foldl_map, List.foldl_map]
  simp only [addPair_formPair]
  rfl

/-- If encoding the names of a form gives names of the form again, nothing had to be encoded in them: of
    the others the longest one would not be the longest. -/
theorem plain_of_closed {names : List Str} (h : ∀ name ∈ names, formEncode name ∈ names) :
    ∀ name ∈ names, FormPlain name := by
  have hbound : ∃ bound, ∀ name ∈ names, name.length ≤ bound :=
    ⟨names.flatten.length, fun name hname => (List.sublist_flatten_of_mem hname).length_le⟩
  obtain ⟨bound, hbound⟩ := hbound
  suffices hgrow : ∀ n, ∀ name ∈ names, bound < name.length + n → FormPlain name from
    fun name hname => hgrow (bound + 1) name hname (by omega)
  intro n
  induction n with
  | zero =>
    intro name hname hlt
    exact absurd (hbound name hname) (by omega)
  | succ n ih =>
    intro name hname hlt
    by_contra hplain
    have hlen := formEncode_formEncode_length hplain
    exact formEncode_not_plain (formEncode_not_plain hplain) (ih _ (h _ (h _ hname)) (by omega))

/-- The entries of a form are stored as they are if and only if nothing in them had to be encoded. -/
theorem ofList_encodeEntry_iff {form : List (Str × Str)} (hkeys : (form.map Prod.fst).Nodup) :
    Table.ofList (form.map encodeEntry) = Table.ofList form ↔
      ∀ kv ∈ form, FormPlain kv.1 ∧ FormPlain kv.2 := by
  have hnames : (form.map encodeEntry).map Prod.fst = (form.map Prod.fst).map formEncode := by
    rw [List.map_map, List.map_map]
    rfl
  constructor
  · intro heq
    have hclosed : ∀ name ∈ form.map Prod.fst, formEncode name ∈ form.map Prod.fst := by
      intro name hname
      rw [← Table.ofList_isSome, ← heq, Table.ofList_isSome, hnames]
      exact List.mem_map_of_mem hname
    have hplain := plain_of_closed hclosed
    have hkeys' : ((form.map encodeEntry).map Prod.fst).Nodup := by
      rwa [hnames, List.map_congr_left fun name hname => formEncode_plain (hplain name hname), List.map_id']
    intro kv hkv
    have hname := hplain kv.1 (List.mem_map_of_mem hkv)
    have hstored := Table.ofList_of_mem hkeys' (List.mem_map_of_mem hkv)
    have hsent := Table.ofList_of_mem hkeys hkv
    rw [heq, encodeEntry, formEncode_plain hname] at hstored
    refine ⟨hname, formEncode_eq_self_iff.mp ?_⟩
    exact Option.some.inj (hstored.symm.trans hsent)
  · intro hplain
    have hentry : ∀ kv ∈ form, encodeEntry kv = kv := by
      intro kv hkv
      obtain ⟨hname, hvalue⟩ := hplain kv hkv
      rw [encodeEntry, formEncode_plain hname, formEncode_plain hvalue]
    rw [List.map_congr_left hentry, List.map_id']

/-- The form data is the form that was sent if and only if nothing in it had to be encoded. -/
theorem formData_parseBody_iff (parseJson : Str → Option Json) (form : List (Str × Str))
    (hkeys : (form.map Prod.fst).Nodup) (base : HttpBase)
    (htype : (Scan.find (str "application/x-www-form-urlencoded")
      (base.getHeader (str "Content-Type"))).isSome = true) (rest : Str) :
    ∃ base', parseBody parseJson (formBody form ++ rest) (formBody form).length base = .ok base' ∧
      (base'.formData = Table.ofList form ↔ ∀ kv ∈ form, FormPlain kv.1 ∧ FormPlain kv.2) := by
  refine ⟨parseFormData { base with requestBody := formBody form }, ?_, ?_⟩
  · unfold parseBody
    rw [if_neg (by omega), Int.toNat_natCast, List.take_left]
    exact if_pos htype
  · rw [parseFormData_formBody rfl]
    exact ofList_encodeEntry_iff hkeys

/-- A request whose `Content-Type` names a form. -/
def formRequest : HttpBase :=
  { HttpBase.init (str "10.0.0.1") with
    requestHeaders := Table.empty.insert (str "Content-Type") (str "application/x-www-form-urlencoded") }

/-- A login of plain letters and digits. -/
theorem formData_login :
    ∃ base', parseBody (fun _ => none)
        (formBody [(str "username", str "admin"), (str "password", str "123456")] ++ str "GET")
        (formBody [(str "username", str "admin"), (str "password", str "123456")]).length formRequest =
          .ok base' ∧
      base'.formData = Table.ofList [(str "username", str "admin"), (str "password", str "123456")] := by
  obtain ⟨base', hparse, hiff⟩ := formData_parseBody_iff (fun _ => none)
    [(str "username", str "admin"), (str "password", str "123456")] (by decide) formRequest (by decide)
    (str "GET")
  exact ⟨base', hparse, hiff.mpr (by decide)⟩

/-- A password with an ampersand is stored with the escape that was sent for it. -/
theorem formData_ampersand :
    ¬ ∀ (parseJson : Str → Option Json) (form : List (Str × Str)), (form.map Prod.fst).Nodup →
      ∀ base : HttpBase, (Scan.find (str "application/x-www-form-urlencoded")
        (base.getHeader (str "Content-Type"))).isSome = true →
      ∃ base', parseBody parseJson (formBody form) (formBody form).length base = .ok base' ∧
        base'.formData = Table.ofList form := by
  intro h
  obtain ⟨base', hparse, hform⟩ := h (fun _ => none) [(str "password", str "a&b")] (by decide) formRequest
    (by decide)
  cases hparse
  exact absurd (congrFun hform (str "password")) (by decide)

end HttpRequest

end ModularNetServer
