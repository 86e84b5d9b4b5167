import ModularNetServer.Http.HeaderCase

/-!
# What a re-cased request says

The parser makes of the header lines what the values of the names that it knows say, each name in its own
spelling. Re-casing a name takes its values from them, or gives them values that they did not have.
-/

namespace ModularNetServer

open Cxx LetterCase

/-! ## Header lines -/

namespace HeaderText

theorem line_isHeaderLine {h : HeaderText} (hs : h.IsSendable) : IsHeaderLine h.line := by
  have hmem : ∀ b ∈ h.line, b ≠ 13 ∧ b ≠ 0 := by
    intro b hb
    rcases List.mem_append.mp hb with hb | hb
    · exact ⟨(hs.name b hb).2.1, (hs.name b hb).2.2.2⟩
    · rcases List.mem_cons.mp hb with rfl | hb
      · decide
      · exact ⟨(hs.text b hb).1, (hs.text b hb).2.2⟩
  exact ⟨by simp [line], Scan.find_eq_none_of_forall_ne fun b hb => (hmem b hb).1, fun b hb => (hmem b hb).2⟩

theorem splitHeader_line {h : HeaderText} (hs : h.IsSendable) :
    HttpRequest.splitHeader h.line = some (h.name, h.value) :=
  HttpRequest.splitHeader_text (fun b hb => (hs.name b hb).1) h.text

/-- A header with a re-cased name can be sent as well. -/
theorem IsSendable.recased {h h' : HeaderText} (hs : h.IsSendable) (hname : Same h.name h'.name)
    (htext : h.text = h'.text) : h'.IsSendable where
  name := by
    have hkept : ∀ c : UInt8, c < 65 → c ∉ h.name → c ∉ h'.name := by
      intro c hc hno hmem
      exact hno ((hname.mem_iff hc).mpr hmem)
    have hno : ∀ c : UInt8, c = 58 ∨ c = 13 ∨ c = 10 ∨ c = 0 → c ∉ h.name := by
      intro c hc hmem
      have hb := hs.name c hmem
      tauto
    intro b hb
    refine ⟨?_, ?_, ?_, ?_⟩
    · rintro rfl
      exact hkept 58 (by decide) (hno 58 (by simp)) hb
    · rintro rfl
      exact hkept 13 (by decide) (hno 13 (by simp)) hb
    · rintro rfl
      exact hkept 10 (by decide) (hno 10 (by simp)) hb
    · rintro rfl
      exact hkept 0 (by decide) (hno 0 (by simp)) hb
  text := by
    rw [← htext]
    exact hs.text

/-! ## The values of a name -/

theorem valuesOf_cons (key : Str) (h : HeaderText) (headers : List HeaderText) :
    valuesOf key (h :: headers) = if h.name = key then h.value :: valuesOf key headers
      else valuesOf key headers := by
  unfold valuesOf
  split_ifs with hkey
  · exact List.filterMap_cons_some (if_pos hkey)
  · exact List.filterMap_cons_none (if_neg hkey)

theorem mem_valuesOf {key value : Str} {headers : List HeaderText} :
    value ∈ valuesOf key headers ↔ ∃ h ∈ headers, h.name = key ∧ h.value = value := by
  unfold valuesOf
  rw [List.mem_filterMap]
  refine exists_congr fun h => and_congr_right fun _ => ?_
  split_ifs with hkey <;> simp [hkey]

theorem valuesOf_eq_nil_iff {key : Str} {headers : List HeaderText} :
    valuesOf key headers = [] ↔ ∀ h ∈ headers, h.name ≠ key := by
  rw [List.eq_nil_iff_forall_not_mem]
  constructor
  · intro hno h hh hkey
    exact hno h.value (mem_valuesOf.mpr ⟨h, hh, hkey, rfl⟩)
  · intro hno value hvalue
    obtain ⟨h, hh, hkey, -⟩ := mem_valuesOf.mp hvalue
    exact hno h hh hkey

end HeaderText

/-! ## What the header lines leave -/

namespace HttpRequest

/-- The header lines leave, for each name, what the values of that spelling say. -/
theorem foldl_applyLine_text {n : Nat} {headers : List HeaderText} (hs : ∀ h ∈ headers, h.IsSendable)
    (ha : ∀ h ∈ headers, h.name = str "Content-Length" → stoi h.value = .ok (n : Int)) {base base' : HttpBase}
    (hb : (headers.map HeaderText.line).foldl applyLine base = base') :
    (∀ key, base'.requestHeaders key =
      (HeaderText.valuesOf key headers).getLast?.or (base.requestHeaders key)) ∧
    base'.range = (HeaderText.valuesOf (str "Range") headers).foldl ByteRange.afterValue base.range ∧
    ((base.keepAlive = true ↔ base.requestHeaders (str "connection") = some (str "keep-alive")) →
      (base'.keepAlive = true ↔ base'.requestHeaders (str "connection") = some (str "keep-alive"))) := by
  induction headers generalizing base with
  | nil =>
    subst hb
    exact ⟨fun _ => rfl, rfl, id⟩
  | cons h headers ih =>
    have hh := hs h (by simp)
    have hsplit := HeaderText.splitHeader_line hh
    have hannounces : Announces n h.line := by
      intro key value hkv hkey
      rw [hsplit] at hkv
      cases hkv
      exact ha h (by simp) hkey
    have hline := applyLine_eq (HeaderText.line_isHeaderLine hh) hannounces hsplit base
    obtain ⟨hheaders, hrange, hconn⟩ := ih (fun g hg => hs g (List.mem_cons_of_mem _ hg))
      (fun g hg => ha g (List.mem_cons_of_mem _ hg)) hb
    refine ⟨?_, ?_, ?_⟩
    · intro key
      rw [hheaders key, hline, HeaderText.valuesOf_cons]
      dsimp only [withField]
      rw [Table.insert_apply]
      by_cases hkey : h.name = key
      · rw [if_pos hkey, if_pos hkey.symm, List.getLast?_cons]
        cases (HeaderText.valuesOf key headers).getLast? <;> rfl
      · rw [if_neg hkey, if_neg (Ne.symm hkey)]
    · rw [hrange, hline, HeaderText.valuesOf_cons]
      dsimp only [withField]
      split_ifs <;> rfl
    · intro hkeep
      apply hconn
      rw [hline]
      dsimp only [withField]
      rw [Table.insert_apply]
      by_cases hkey : h.name = str "connection"
      · rw [if_pos hkey, if_pos hkey.symm]
        simp
      · rw [if_neg hkey, if_neg (Ne.symm hkey), hkeep]

end HttpRequest

/-! ## A request with its header lines -/

namespace TextRequest

variable {parseJson : Str → Option Json}

theorem Recased.refl (r : TextRequest) : r.Recased r where
  method := rfl
  url := rfl
  version := rfl
  headers := List.forall₂_same.mpr fun h _ => ⟨Same.refl h.name, rfl⟩
  body := rfl

/-- The body of the request, if the parser finds a length for it. -/
def readBody (r : TextRequest) : Str :=
  if HeaderText.valuesOf (str "Content-Length") r.headers = [] then [] else r.body

/-- The request as the parser reads it. -/
def read (r : TextRequest) : RawRequest := { r.raw with body := r.readBody }

/-- A header of a re-cased request. -/
theorem Recased.mem {r r' : TextRequest} (hr : r.Recased r') {h' : HeaderText} (hh : h' ∈ r'.headers) :
    ∃ h ∈ r.headers, Same h.name h'.name ∧ h.text = h'.text := by
  have hall := hr.headers
  generalize r.headers = headers at hall ⊢
  generalize r'.headers = headers' at hall hh
  induction hall with
  | nil => cases hh
  | @cons h g hs gs hhead _ ih =>
    rcases List.mem_cons.mp hh with rfl | hh
    · exact ⟨h, by simp, hhead⟩
    · obtain ⟨k, hk, hkg⟩ := ih hh
      exact ⟨k, List.mem_cons_of_mem _ hk, hkg⟩

/-- A value of a re-cased request is the value of a header with that name. -/
theorem Recased.mem_valuesOf {r r' : TextRequest} (hr : r.Recased r') {name : String} {key value : Str}
    (hkey : Same key (str name)) (hvalue : value ∈ HeaderText.valuesOf key r'.headers) :
    ∃ h ∈ r.headers, h.Named name ∧ h.value = value := by
  obtain ⟨h', hh', rfl, rfl⟩ := HeaderText.mem_valuesOf.mp hvalue
  obtain ⟨h, hh, hname, htext⟩ := hr.mem hh'
  refine ⟨h, hh, hname.trans hkey, ?_⟩
  rw [HeaderText.value, HeaderText.value, htext]

theorem Recased.isSendable {r r' : TextRequest} (hr : r.Recased r') (h : r.WellFormed) {h' : HeaderText}
    (hh : h' ∈ r'.headers) : h'.IsSendable := by
  obtain ⟨g, hg, hname, htext⟩ := hr.mem hh
  exact (h.headers g hg).recased hname htext

/-- What a re-cased request announces is the length of the body, and of the body that the parser finds. -/
theorem Recased.announces {r r' : TextRequest} (hr : r.Recased r') (h : r.WellFormed) {h' : HeaderText}
    (hh : h' ∈ r'.headers) (hname : h'.name = str "Content-Length") :
    stoi h'.value = .ok (r'.readBody.length : Int) := by
  have hmem : h'.value ∈ HeaderText.valuesOf (str "Content-Length") r'.headers :=
    HeaderText.mem_valuesOf.mpr ⟨h', hh, hname, rfl⟩
  obtain ⟨g, hg, hnamed, hvalue⟩ := hr.mem_valuesOf (Same.refl _) hmem
  have hbody : r'.readBody = r.body := (if_neg (List.ne_nil_of_mem hmem)).trans hr.body
  rw [← hvalue, hbody]
  exact h.announces g hg hnamed

/-- A re-cased request is well formed for the body that the parser finds. -/
theorem Recased.read_wellFormed {r r' : TextRequest} (hr : r.Recased r') (h : r.WellFormed) :
    r'.read.WellFormed where
  method := by
    show IsToken r'.method
    rw [hr.method]
    exact h.method
  url := by
    show IsToken r'.url
    rw [hr.url]
    exact h.url
  version := by
    show IsToken r'.version
    rw [hr.version]
    exact h.version
  lines := by
    intro line hline
    obtain ⟨h', hh', rfl⟩ := List.mem_map.mp hline
    exact HeaderText.line_isHeaderLine (hr.isSendable h hh')
  announces := by
    intro line hline key value hsplit hkey
    obtain ⟨h', hh', rfl⟩ := List.mem_map.mp hline
    rw [HeaderText.splitHeader_line (hr.isSendable h hh')] at hsplit
    cases hsplit
    exact hr.announces h hh' hkey
  contentLength := by
    by_cases hnone : HeaderText.valuesOf (str "Content-Length") r'.headers = []
    · exact .inl (if_pos hnone)
    · obtain ⟨value, hvalue⟩ := List.exists_mem_of_ne_nil _ hnone
      obtain ⟨h', hh', hname, -⟩ := HeaderText.mem_valuesOf.mp hvalue
      refine .inr ⟨h'.line, List.mem_map_of_mem hh', h'.value, ?_⟩
      rw [HeaderText.splitHeader_line (hr.isSendable h hh'), hname]

/-- What the headers say that are spelled as the parser has them. -/
def told (r : TextRequest) : Observed where
  body := r.readBody
  contentLength := r.readBody.length
  keepAlive := decide ((HeaderText.valuesOf (str "connection") r.headers).getLast? = some (str "keep-alive"))
  range := (HeaderText.valuesOf (str "Range") r.headers).foldl ByteRange.afterValue ByteRange.unset
  session := sessionOf ((HeaderText.valuesOf (str "Cookie") r.headers).getLast?.getD [])
  token := (HeaderText.valuesOf (str "Authorization") r.headers).getLast?.getD []

/-- The session cookie is looked up in the last `Cookie` value. -/
theorem session_eq (base : HttpBase) :
    HttpRequest.getRequestCookie base (str "session_id") =
      sessionOf ((base.requestHeaders (str "Cookie")).getD []) := by
  unfold HttpRequest.getRequestCookie
  cases base.requestHeaders (str "Cookie") with
  | none => rfl
  | some value => rfl

/-- The parser takes a re-cased request for one that is complete and says what its headers say in the
    spelling that the parser has. -/
theorem Recased.parse_told {r r' : TextRequest} (hr : r.Recased r') (h : r.WellFormed) (ip : Str) :
    ∃ p, r'.parse parseJson ip = .ok (true, p) ∧ p.httpBase.observed = r'.told := by
  have hw := hr.read_wellFormed h
  have hlength : (r'.read.headBase (HttpBase.init ip)).contentLength = (r'.readBody.length : Int) :=
    RawRequest.headBase_contentLength hw rfl
  have hle : r'.readBody.length ≤ r'.body.length := by
    unfold readBody
    split_ifs
    · exact Nat.zero_le _
    · exact le_rfl
  have htake : r'.body.take r'.readBody.length = r'.readBody := by
    unfold readBody
    split_ifs
    · rfl
    · exact List.take_length
  obtain ⟨base, hbody, hparse⟩ := @LineParser.parse_body parseJson _ _ _ hlength hle
  obtain ⟨base', hbody', hbase⟩ :=
    HttpRequest.parseBody_ok parseJson r'.body r'.readBody.length (r'.read.headBase (HttpBase.init ip))
  obtain rfl : base = base' := Except.ok.inj (hbody.symm.trans hbody')
  refine ⟨_, (LineParser.parse_head hw r'.body (HttpBase.init ip)).trans hparse, ?_⟩
  obtain ⟨hheaders, hrange, hconn⟩ := HttpRequest.foldl_applyLine_text (fun g hg => hr.isSendable h hg)
    (fun g hg hname => hr.announces h hg hname) (rfl : _ = r'.read.headBase (HttpBase.init ip))
  have hconn' := hconn (by simp [HttpBase.init, Table.empty])
  have hfields : ∀ key, base.requestHeaders key = (HeaderText.valuesOf key r'.headers).getLast? := by
    intro key
    rw [hbase]
    refine (hheaders key).trans ?_
    cases (HeaderText.valuesOf key r'.headers).getLast? <;> rfl
  have hkeep : base.keepAlive =
      decide ((HeaderText.valuesOf (str "connection") r'.headers).getLast? = some (str "keep-alive")) := by
    rw [Bool.eq_iff_iff, decide_eq_true_iff, ← hfields, hbase]
    exact hconn (by simp [HttpBase.init, Table.empty])
  have hbytes : base.requestBody = r'.readBody := by
    rw [hbase]
    exact htake
  have hcount : base.contentLength = (r'.readBody.length : Int) := by
    rw [hbase]
    exact hlength
  have hbounds : base.range =
      (HeaderText.valuesOf (str "Range") r'.headers).foldl ByteRange.afterValue ByteRange.unset := by
    rw [hbase]
    exact hrange
  unfold HttpBase.observed told
  rw [session_eq, HttpRequest.getToken, HttpBase.getHeader, hfields, hfields, hkeep, hbytes, hcount, hbounds]

/-! ## What the spelling changes -/

/-- Requests with the same body say the same exactly when they agree in the headers that are spelled as the
    parser has them. -/
theorem told_eq_iff {r r' : TextRequest} (hbody : r'.body = r.body) :
    r.told = r'.told ↔ r.SpellTheSame r' := by
  have hread : r.readBody = r'.readBody ↔ r.body = [] ∨
      (HeaderText.valuesOf (str "Content-Length") r.headers = [] ↔
        HeaderText.valuesOf (str "Content-Length") r'.headers = []) := by
    unfold readBody
    rw [hbody]
    split_ifs with h1 h2 h2
    · simp [h1, h2]
    · simp [h1, h2, eq_comm]
    · simp [h1, h2]
    · simp [h1, h2]
  constructor
  · intro heq
    unfold told at heq
    simp only [Observed.mk.injEq, decide_eq_decide] at heq
    obtain ⟨hbytes, -, hkeep, hrange, hsession, htoken⟩ := heq
    exact ⟨hread.mp hbytes, hkeep, hrange, hsession, htoken⟩
  · rintro ⟨hbytes, hkeep, hrange, hsession, htoken⟩
    unfold told
    rw [hread.mpr hbytes, hrange, hsession, htoken, decide_eq_decide.mpr hkeep]

theorem sayTheSame_iff {r r' : TextRequest} (h : r.WellFormed) (hr : r.Recased r') (ip : Str) :
    SayTheSame parseJson ip r r' ↔ r.SpellTheSame r' := by
  obtain ⟨p, hp, htold⟩ := @Recased.parse_told parseJson _ _ (Recased.refl r) h ip
  obtain ⟨p', hp', htold'⟩ := @Recased.parse_told parseJson _ _ hr h ip
  rw [← told_eq_iff hr.body, ← htold, ← htold']
  unfold SayTheSame
  rw [hp, hp']
  constructor
  · rintro ⟨q, q', hq, hq', heq⟩
    cases hq
    cases hq'
    exact heq
  · intro heq
    exact ⟨p, p', rfl, rfl, heq⟩

/-- A request without headers that say anything is read as one without headers, however it is spelled. -/
theorem SaysNothing.told {r r' : TextRequest} (hn : r.SaysNothing) (hr : r.Recased r') :
    r'.told = ⟨[], 0, false, ByteRange.unset, [], []⟩ := by
  have hbody : r'.readBody = [] := by
    unfold readBody
    rw [hr.body, hn.body, ite_self]
  have hkeep : (HeaderText.valuesOf (str "connection") r'.headers).getLast? ≠ some (str "keep-alive") := by
    intro hlast
    obtain ⟨h, hh, hnamed, hvalue⟩ := @Recased.mem_valuesOf _ _ hr "Connection" _ _ (by decide)
      (List.mem_of_getLast? hlast)
    exact hn.connection h hh hnamed hvalue
  have hrange : (HeaderText.valuesOf (str "Range") r'.headers).foldl ByteRange.afterValue ByteRange.unset =
      ByteRange.unset := by
    have hall : ∀ value ∈ HeaderText.valuesOf (str "Range") r'.headers,
        ByteRange.unset.afterValue value = ByteRange.unset := by
      intro value hvalue
      obtain ⟨h, hh, hnamed, rfl⟩ := hr.mem_valuesOf (Same.refl _) hvalue
      exact hn.range h hh hnamed
    refine List.foldlRecOn (motive := fun range => range = ByteRange.unset) _ _ rfl ?_
    intro range hrange value hvalue
    rw [hrange, hall value hvalue]
  have hsession : sessionOf ((HeaderText.valuesOf (str "Cookie") r'.headers).getLast?.getD []) = [] := by
    cases hlast : (HeaderText.valuesOf (str "Cookie") r'.headers).getLast? with
    | none => rfl
    | some value =>
      obtain ⟨h, hh, hnamed, rfl⟩ := hr.mem_valuesOf (Same.refl _) (List.mem_of_getLast? hlast)
      exact hn.cookie h hh hnamed
  have htoken : (HeaderText.valuesOf (str "Authorization") r'.headers).getLast?.getD [] = [] := by
    cases hlast : (HeaderText.valuesOf (str "Authorization") r'.headers).getLast? with
    | none => rfl
    | some value =>
      obtain ⟨h, hh, hnamed, rfl⟩ := hr.mem_valuesOf (Same.refl _) (List.mem_of_getLast? hlast)
      exact hn.authorization h hh hnamed
  unfold TextRequest.told
  rw [hbody, hrange, hsession, htoken, decide_eq_false hkeep]
  rfl

/-! ## Two spellings of a request -/

/-- The header with its name in upper case. -/
def shout (h : HeaderText) : HeaderText := ⟨upper h.name, h.text⟩

theorem forall₂_shout (headers : List HeaderText) :
    List.Forall₂ (fun h h' => Same h.name h'.name ∧ h.text = h'.text) headers (headers.map shout) := by
  rw [List.forall₂_map_right_iff, List.forall₂_same]
  exact fun h _ => ⟨(same_upper h.name).symm, rfl⟩

theorem valuesOf_shout {key : Str} (hlow : ∃ b ∈ key, 97 ≤ b ∧ b ≤ 122) (headers : List HeaderText) :
    HeaderText.valuesOf key (headers.map shout) = [] := by
  rw [HeaderText.valuesOf_eq_nil_iff]
  intro h' hh'
  obtain ⟨h, -, rfl⟩ := List.mem_map.mp hh'
  exact upper_ne hlow

/-- In upper case no name is spelled as the parser has it. -/
theorem exists_unspelled (r : TextRequest) : ∃ r', r.Recased r' ∧
    ∀ key, (∃ b ∈ key, 97 ≤ b ∧ b ≤ 122) → HeaderText.valuesOf key r'.headers = [] :=
  ⟨{ r with headers := r.headers.map shout }, ⟨rfl, rfl, rfl, forall₂_shout r.headers, rfl⟩,
    fun _ hlow => valuesOf_shout hlow r.headers⟩

/-- One header is spelled in a given way, and all others in upper case. -/
theorem exists_spelled {r : TextRequest} {h : HeaderText} (hh : h ∈ r.headers) {key : Str}
    (hname : Same h.name key) (hlow : ∃ b ∈ key, 97 ≤ b ∧ b ≤ 122) :
    ∃ r', r.Recased r' ∧ HeaderText.valuesOf key r'.headers = [h.value] := by
  obtain ⟨before, after, hsplit⟩ := List.append_of_mem hh
  refine ⟨{ r with headers := before.map shout ++ ⟨key, h.text⟩ :: after.map shout },
    ⟨rfl, rfl, rfl, ?_, rfl⟩, ?_⟩
  · rw [hsplit]
    exact List.rel_append (forall₂_shout before) (.cons ⟨hname, rfl⟩ (forall₂_shout after))
  · have hafter : HeaderText.valuesOf key (⟨key, h.text⟩ :: after.map shout) = [h.value] := by
      rw [HeaderText.valuesOf_cons, if_pos rfl, valuesOf_shout hlow]
      rfl
    have hbefore := valuesOf_shout hlow before
    unfold HeaderText.valuesOf at hafter hbefore ⊢
    rw [List.filterMap_append, hafter, hbefore, List.nil_append]

/-- What is made of the values of a spelling is, if every re-casing leaves it the same, what is made of none:
    a header with the name can be the only one that is spelled so, or there can be none. -/
theorem made_of_value {α : Type*} {r : TextRequest} {key : Str} {f : List Str → α}
    (h : ∀ r', r.Recased r' → f (HeaderText.valuesOf key r.headers) = f (HeaderText.valuesOf key r'.headers))
    (hlow : ∃ b ∈ key, 97 ≤ b ∧ b ≤ 122) {g : HeaderText} (hg : g ∈ r.headers) (hname : Same g.name key) :
    f [g.value] = f [] := by
  obtain ⟨r₀, hr₀, hnone⟩ := exists_unspelled r
  obtain ⟨r₁, hr₁, hone⟩ := exists_spelled hg hname hlow
  have hunspelled := h r₀ hr₀
  have hspelled := h r₁ hr₁
  rw [hnone key hlow] at hunspelled
  rw [hone] at hspelled
  exact hspelled.symm.trans hunspelled

/-- A request that every re-casing leaves the same has no header that says anything. -/
theorem saysNothing_of_spellTheSame {r : TextRequest} (hw : r.WellFormed)
    (h : ∀ r', r.Recased r' → r.SpellTheSame r') : r.SaysNothing where
  body := by
    by_contra hbody
    obtain ⟨g, hg, hnamed⟩ := hw.contentLength.resolve_left hbody
    have hspelled := made_of_value (f := fun values => values = [])
      (fun r' hr => propext ((h r' hr).body.resolve_left hbody)) (by decide) hg hnamed
    exact List.cons_ne_nil _ _ (hspelled.mpr rfl)
  connection := by
    intro g hg hnamed hvalue
    have hspelled := made_of_value (f := fun values => values.getLast? = some (str "keep-alive"))
      (fun r' hr => propext (h r' hr).connection) (by decide) hg
      (hnamed.trans (by decide : Same (str "Connection") (str "connection")))
    cases hspelled.mp (congrArg some hvalue)
  range := fun g hg hnamed =>
    made_of_value (f := fun values => values.foldl ByteRange.afterValue ByteRange.unset)
      (fun r' hr => (h r' hr).range) (by decide) hg hnamed
  cookie := fun g hg hnamed =>
    made_of_value (f := fun values => sessionOf (values.getLast?.getD [])) (fun r' hr => (h r' hr).cookie)
      (by decide) hg hnamed
  authorization := fun g hg hnamed =>
    made_of_value (f := fun values => values.getLast?.getD []) (fun r' hr => (h r' hr).authorization)
      (by decide) hg hnamed

/-- A re-casing is harmless exactly when both requests agree in the headers that are spelled as the parser has
    them; all re-casings of a request are exactly when no header of it says anything, in whatever case. -/
theorem recased_iff {r : TextRequest} (h : r.WellFormed) (ip : Str) :
    (∀ r', r.Recased r' → (SayTheSame parseJson ip r r' ↔ r.SpellTheSame r')) ∧
      ((∀ r', r.Recased r' → SayTheSame parseJson ip r r') ↔ r.SaysNothing) := by
  refine ⟨fun r' hr => sayTheSame_iff h hr ip, ?_⟩
  constructor
  · intro hall
    exact saysNothing_of_spellTheSame h fun r' hr => (sayTheSame_iff h hr ip).mp (hall r' hr)
  · intro hn r' hr
    rw [sayTheSame_iff h hr ip, ← told_eq_iff hr.body, hn.told hr, hn.told (Recased.refl r)]

/-- A request to keep the connection. -/
def keepAliveRequest (name : String) : TextRequest where
  method := str "GET"
  url := str "/"
  version := str "HTTP/1.1"
  headers := [⟨str name, str " keep-alive"⟩, ⟨str "Host", str " a"⟩]
  body := []

theorem keepAliveRequest_wellFormed : (keepAliveRequest "connection").WellFormed := by
  have hname : ∀ h ∈ (keepAliveRequest "connection").headers, ¬ h.Named "Content-Length" := by
    intro h hh
    simp only [keepAliveRequest, List.mem_cons, List.not_mem_nil, or_false] at hh
    rcases hh with rfl | rfl
    · exact (by decide : ¬ Same (str "connection") (str "Content-Length"))
    · exact (by decide : ¬ Same (str "Host") (str "Content-Length"))
  refine ⟨⟨by decide, by decide, by decide⟩, ⟨by decide, by decide, by decide⟩,
    ⟨by decide, by decide, by decide⟩, ?_, fun h hh hnamed => absurd hnamed (hname h hh), .inl rfl⟩
  intro h hh
  simp only [keepAliveRequest, List.mem_cons, List.not_mem_nil, or_false] at hh
  rcases hh with rfl | rfl
  · exact ⟨by decide, by decide⟩
  · exact ⟨by decide, by decide⟩

/-- To re-case `Host` is harmless. -/
theorem recased_iff_host : SayTheSame (fun _ => none) (str "10.0.0.1") (keepAliveRequest "connection")
    { keepAliveRequest "connection" with
      headers := [⟨str "connection", str " keep-alive"⟩, ⟨str "HOST", str " a"⟩] } := by
  have hr : (keepAliveRequest "connection").Recased { keepAliveRequest "connection" with
      headers := [⟨str "connection", str " keep-alive"⟩, ⟨str "HOST", str " a"⟩] } :=
    ⟨rfl, rfl, rfl, .cons ⟨by decide, rfl⟩ (.cons ⟨by decide, rfl⟩ .nil), rfl⟩
  refine (((recased_iff keepAliveRequest_wellFormed (str "10.0.0.1")).1 _ hr).mpr ?_)
  exact ⟨.inl rfl, by decide, by decide, by decide, by decide⟩

/-- `Connection` is not the name that the parser knows. -/
theorem connection_capitalised : (keepAliveRequest "connection").WellFormed ∧
    (keepAliveRequest "connection").Recased (keepAliveRequest "Connection") ∧
      ¬ SayTheSame (fun _ => none) (str "10.0.0.1") (keepAliveRequest "connection")
        (keepAliveRequest "Connection") := by
  have hr : (keepAliveRequest "connection").Recased (keepAliveRequest "Connection") :=
    ⟨rfl, rfl, rfl, .cons ⟨by decide, rfl⟩ (.cons ⟨by decide, rfl⟩ .nil), rfl⟩
  refine ⟨keepAliveRequest_wellFormed, hr, ?_⟩
  rw [sayTheSame_iff keepAliveRequest_wellFormed hr]
  intro hsame
  exact absurd hsame.connection (by decide)

end TextRequest

end ModularNetServer
