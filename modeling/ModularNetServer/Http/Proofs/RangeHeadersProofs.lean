import ModularNetServer.Http.HeaderFields

/-!
# Which range the headers leave

Of the three fields of the range, `parseRange` sets each with some values and leaves it alone with others.
So each field is the one that was set last, by a header that need not be the last one.
-/

namespace ModularNetServer

open Cxx LastWrite

/-! ## Cutting a value -/

theorem Parts.isPrefix {value first last : Str} (h : Parts value first last) : str "bytes=" <+: value := by
  rw [h.1]
  exact List.prefix_append _ _

theorem Parts.drop {value first last : Str} (h : Parts value first last) :
    value.drop 6 = first ++ 45 :: last := by
  rw [h.1]
  exact List.drop_left' rfl

theorem Parts.find {value first last : Str} (h : Parts value first last) :
    Scan.find (str "-") (value.drop 6) = some first.length :=
  Scan.find_singleton_iff.mpr ⟨first, last, h.drop, h.2, rfl⟩

/-- A value with the prefix and a hyphen is cut. -/
theorem parts_of_find {value : Str} (hp : str "bytes=" <+: value) {pos : Nat}
    (h : Scan.find (str "-") (value.drop 6) = some pos) :
    Parts value ((value.drop 6).take pos) ((value.drop 6).drop (pos + 1)) := by
  obtain ⟨rest, rfl⟩ := hp
  have hrest : (str "bytes=" ++ rest).drop 6 = rest := List.drop_left' rfl
  rw [hrest] at h ⊢
  obtain ⟨first, last, hcut, hfirst, rfl⟩ := Scan.find_singleton_iff.mp h
  obtain rfl : rest = first ++ 45 :: last := hcut
  have hlast : (first ++ 45 :: last).drop (first.length + 1) = last := by
    rw [← List.drop_drop, List.drop_left]
    rfl
  rw [List.take_left, hlast]
  exact ⟨rfl, hfirst⟩

theorem Parts.unique {value first last first' last' : Str} (h : Parts value first last)
    (h' : Parts value first' last') : first = first' ∧ last = last' := by
  have hlen : first.length = first'.length := Option.some.inj (h.find.symm.trans h'.find)
  have heq : first ++ 45 :: last = first' ++ 45 :: last' := h.drop.symm.trans h'.drop
  obtain ⟨hfirst, hlast⟩ := List.append_inj heq hlen
  exact ⟨hfirst, (List.cons.inj hlast).2⟩

/-! ## One value -/

theorem parseBound_error {part : Str} {old : Int} {e : Exception}
    (h : HttpBase.parseBound part old = .error e) : ¬ Reads part := by
  unfold HttpBase.parseBound at h
  split_ifs at h with hnil
  rintro (hpart | ⟨n, hn⟩)
  · exact hnil hpart
  · rw [hn] at h
    cases h

theorem parseBound_ok {part : Str} {old n : Int} (h : HttpBase.parseBound part old = .ok n) :
    part = [] ∧ n = old ∨ part ≠ [] ∧ stoi part = .ok n := by
  unfold HttpBase.parseBound at h
  split_ifs at h with hnil
  · cases h
    exact .inl ⟨hnil, rfl⟩
  · exact .inr ⟨hnil, h⟩

namespace ByteRange

variable {range : ByteRange} {value : Str}

theorem afterValue_parts {first last : Str} (h : Parts value first last) :
    range.afterValue value = range.afterParts first last := by
  have hlast : (value.drop 6).drop (first.length + 1) = last := by
    rw [h.drop, ← List.drop_drop, List.drop_left]
    rfl
  unfold afterValue
  rw [if_pos h.isPrefix, h.find]
  dsimp only
  rw [hlast, h.drop, List.take_left]

/-- What a value does: it has another prefix, no hyphen, or two parts. -/
theorem afterValue_cases (range : ByteRange) (value : Str) :
    (¬ str "bytes=" <+: value ∧ range.afterValue value = range) ∨
      (str "bytes=" <+: value ∧ (∀ first last, ¬ Parts value first last) ∧
        range.afterValue value = { range with isValid := false }) ∨
      ∃ first last, Parts value first last ∧ range.afterValue value = range.afterParts first last := by
  by_cases hp : str "bytes=" <+: value
  · cases hfind : Scan.find (str "-") (value.drop 6) with
    | none =>
      refine .inr (.inl ⟨hp, ?_, ?_⟩)
      · intro first last h
        rw [h.find] at hfind
        cases hfind
      · unfold afterValue
        rw [if_pos hp, hfind]
    | some pos => exact .inr (.inr ⟨_, _, parts_of_find hp hfind, afterValue_parts (parts_of_find hp hfind)⟩)
  · exact .inl ⟨hp, if_neg hp⟩

/-! ## The start -/

theorem afterValue_start_set {n : Int} (h : SetsStart value n) : (range.afterValue value).start = n := by
  obtain ⟨first, last, hparts, hne, hn⟩ := h
  have hbound : HttpBase.parseBound first range.start = .ok n := by rw [HttpBase.parseBound, if_neg hne, hn]
  rw [afterValue_parts hparts]
  unfold afterParts
  rw [hbound]
  dsimp only
  split <;> rfl

theorem afterValue_start_keep (h : ∀ n, ¬ SetsStart value n) :
    (range.afterValue value).start = range.start := by
  rcases afterValue_cases range value with ⟨-, heq⟩ | ⟨-, -, heq⟩ | ⟨first, last, hparts, heq⟩
  · rw [heq]
  · rw [heq]
  · rw [heq]
    unfold afterParts
    cases hbound : HttpBase.parseBound first range.start with
    | error e => rfl
    | ok n =>
      rcases parseBound_ok hbound with ⟨-, rfl⟩ | ⟨hne, hn⟩
      · dsimp only
        split <;> rfl
      · exact absurd ⟨first, last, hparts, hne, hn⟩ (h n)

/-! ## The end -/

theorem exists_parseBound {part : Str} (h : Reads part) (old : Int) :
    ∃ n, HttpBase.parseBound part old = .ok n := by
  unfold HttpBase.parseBound
  rcases h with rfl | ⟨n, hn⟩
  · exact ⟨old, rfl⟩
  · split_ifs
    · exact ⟨old, rfl⟩
    · exact ⟨n, hn⟩

theorem afterValue_stop_set {n : Int} (h : SetsStop value n) : (range.afterValue value).stop = n := by
  obtain ⟨first, last, hparts, hfirst, hne, hn⟩ := h
  obtain ⟨start, hstart⟩ := exists_parseBound hfirst range.start
  have hbound : HttpBase.parseBound last range.stop = .ok n := by rw [HttpBase.parseBound, if_neg hne, hn]
  rw [afterValue_parts hparts]
  unfold afterParts
  rw [hstart]
  dsimp only
  rw [hbound]

theorem afterValue_stop_keep (h : ∀ n, ¬ SetsStop value n) : (range.afterValue value).stop = range.stop := by
  rcases afterValue_cases range value with ⟨-, heq⟩ | ⟨-, -, heq⟩ | ⟨first, last, hparts, heq⟩
  · rw [heq]
  · rw [heq]
  · rw [heq]
    unfold afterParts
    cases hstart : HttpBase.parseBound first range.start with
    | error e => rfl
    | ok start =>
      have hfirst : Reads first := (parseBound_ok hstart).imp And.left fun h => ⟨start, h.2⟩
      dsimp only
      cases hbound : HttpBase.parseBound last range.stop with
      | error e => rfl
      | ok n =>
        rcases parseBound_ok hbound with ⟨-, rfl⟩ | ⟨hne, hn⟩
        · rfl
        · exact absurd ⟨first, last, hparts, hfirst, hne, hn⟩ (h n)

/-! ## The validity -/

theorem afterParts_isValid_iff {first last : Str} :
    (range.afterParts first last).isValid = true ↔ Reads first ∧ Reads last := by
  unfold afterParts
  cases hstart : HttpBase.parseBound first range.start with
  | error e => simp [parseBound_error hstart]
  | ok start =>
    have hfirst : Reads first := (parseBound_ok hstart).imp And.left fun h => ⟨start, h.2⟩
    dsimp only
    cases hstop : HttpBase.parseBound last range.stop with
    | error e => simp [parseBound_error hstop]
    | ok stop =>
      have hlast : Reads last := (parseBound_ok hstop).imp And.left fun h => ⟨stop, h.2⟩
      simp [hfirst, hlast]

theorem afterValue_isValid_set {valid : Bool} (h : SetsValid value valid) :
    (range.afterValue value).isValid = valid := by
  obtain ⟨hp, hvalid⟩ := h
  rw [Bool.eq_iff_iff, hvalid]
  rcases afterValue_cases range value with ⟨hno, -⟩ | ⟨-, huncut, heq⟩ | ⟨first, last, hparts, heq⟩
  · exact absurd hp hno
  · simp [heq, huncut]
  · rw [heq, afterParts_isValid_iff]
    constructor
    · intro h
      exact ⟨first, last, hparts, h⟩
    · rintro ⟨first', last', hparts', h⟩
      obtain ⟨rfl, rfl⟩ := hparts.unique hparts'
      exact h

/-- A value with the prefix decides. -/
theorem exists_setsValid (hp : str "bytes=" <+: value) : ∃ valid, SetsValid value valid := by
  by_cases h : ∃ first last, Parts value first last ∧ Reads first ∧ Reads last
  · exact ⟨true, hp, by simp [h]⟩
  · exact ⟨false, hp, by simp [h]⟩

theorem afterValue_isValid_keep (h : ∀ valid, ¬ SetsValid value valid) :
    (range.afterValue value).isValid = range.isValid := by
  have hp : ¬ str "bytes=" <+: value := by
    intro hp
    obtain ⟨valid, hvalid⟩ := exists_setsValid hp
    exact h valid hvalid
  rw [afterValue, if_neg hp]

end ByteRange

/-! ## The lines -/

/-- A line is a `Range` header if its field has that name. -/
theorem rangeValue_eq (line : Str) :
    rangeValue line = (HttpRequest.headerField line).bind fun kv => if kv.1 = str "Range" then some kv.2 else none := by
  unfold rangeValue HttpRequest.headerField
  split_ifs
  · rfl
  · cases HttpRequest.splitHeader line <;> rfl

/-- A line changes the range as its `Range` value has it, if it has one. -/
theorem range_parseHeaders {line : Str} {base base' : HttpBase} {more : Bool}
    (h : HttpRequest.parseHeaders line base = .ok (more, base')) :
    base'.range = (rangeValue line).elim base.range base.range.afterValue := by
  rw [rangeValue_eq]
  rcases HttpRequest.parseHeaders_cases h with ⟨hnone, rfl⟩ | ⟨key, value, length, hfield, rfl⟩
  · rw [hnone, Option.bind_none, Option.elim_none]
  · rw [hfield, Option.bind_some]
    dsimp only [HttpRequest.withField]
    split_ifs <;> rfl

theorem range_parseHeaderLines {lines : List Str} {base base' : HttpBase}
    (h : HttpRequest.parseHeaderLines base lines = .ok base') :
    base'.range = (rangeValues lines).foldl ByteRange.afterValue base.range := by
  induction lines generalizing base with
  | nil =>
    cases h
    rfl
  | cons line lines ih =>
    unfold HttpRequest.parseHeaderLines at h
    cases hline : HttpRequest.parseHeaders line base with
    | error e =>
      rw [hline] at h
      cases h
    | ok result =>
      obtain ⟨more, base1⟩ := result
      rw [hline] at h
      have hrange := range_parseHeaders hline
      rw [ih h, hrange]
      unfold rangeValues
      cases hvalue : rangeValue line with
      | none => rw [List.filterMap_cons_none hvalue, Option.elim_none]
      | some value => rw [List.filterMap_cons_some hvalue, Option.elim_some, List.foldl_cons]

/-! ## The grammar -/

theorem not_mem_of_digits {ds : Str} (h : ∀ d ∈ ds, isDigit d = true) : 45 ∉ ds :=
  fun hmem => absurd (h 45 hmem) (by decide)

/-- A group that is there is read, and one that is absent leaves the bound as it was. -/
theorem parseBound_digits {ds : Str} (hdig : ∀ d ∈ ds, isDigit d = true) (hlt : digitsValue ds < 2 ^ 31)
    (old : Int) : HttpBase.parseBound ds old = .ok (if ds = [] then old else digitsValue ds) := by
  unfold HttpBase.parseBound
  split_ifs with hne
  · rfl
  · exact stoi_digits hne hdig hlt

theorem groupValue_eq_neg_one_iff {ds : Str} : groupValue ds = -1 ↔ ds = [] := by
  unfold groupValue
  split_ifs with h
  · simp [h]
  · exact iff_of_false (fun heq => by omega) h

/-- A value is well formed in one way. -/
theorem IsRange.unique {value : Str} {start stop start' stop' : Int} (h : IsRange value start stop)
    (h' : IsRange value start' stop') : start = start' ∧ stop = stop' := by
  obtain ⟨first, last, hvalue, hfirst, -, -, -, -, rfl, rfl⟩ := h
  obtain ⟨first', last', hvalue', hfirst', -, -, -, -, rfl, rfl⟩ := h'
  have hparts : Parts value first last := ⟨hvalue, not_mem_of_digits hfirst⟩
  obtain ⟨rfl, rfl⟩ := hparts.unique ⟨hvalue', not_mem_of_digits hfirst'⟩
  exact ⟨rfl, rfl⟩

/-- A well-formed value is accepted, and sets the bounds that it has. -/
theorem afterValue_isRange {value : Str} {start stop : Int} (h : IsRange value start stop)
    (range : ByteRange) :
    range.afterValue value =
      ⟨if start = -1 then range.start else start, if stop = -1 then range.stop else stop, true⟩ := by
  obtain ⟨first, last, hvalue, hfirst, hlast, -, hfits, hfits', rfl, rfl⟩ := h
  have hparts : Parts value first last := ⟨hvalue, not_mem_of_digits hfirst⟩
  rw [ByteRange.afterValue_parts hparts]
  unfold ByteRange.afterParts
  rw [parseBound_digits hfirst hfits]
  dsimp only
  rw [parseBound_digits hlast hfits']
  simp only [groupValue_eq_neg_one_iff]
  congr 1 <;> split_ifs with hnil <;> simp [groupValue, hnil]

/-! ## All values -/

theorem setsStart_nonneg {value : Str} {n : Int} (h : SetsStart value n) : 0 ≤ n := by
  obtain ⟨first, last, hparts, -, hn⟩ := h
  exact stoi_nonneg hparts.2 hn

theorem setsStop_unique (value : Str) (n n' : Int) (h : SetsStop value n) (h' : SetsStop value n') : n = n' := by
  rw [← @ByteRange.afterValue_stop_set ByteRange.unset _ _ h,
    @ByteRange.afterValue_stop_set ByteRange.unset _ _ h']

theorem setsValid_unique (value : Str) (b b' : Bool) (h : SetsValid value b) (h' : SetsValid value b') :
    b = b' := by
  rw [← @ByteRange.afterValue_isValid_set ByteRange.unset _ _ h,
    @ByteRange.afterValue_isValid_set ByteRange.unset _ _ h']

/-- The start is still unset if and only if no value has set it. -/
theorem start_foldl_iff (values : List Str) :
    (values.foldl ByteRange.afterValue ByteRange.unset).start = -1 ↔
      ∀ n, ¬ LastSets SetsStart values n := by
  rcases @foldl_lastWrite _ _ _ SetsStart ByteRange.afterValue ByteRange.start
    (fun _ _ _ => ByteRange.afterValue_start_set) (fun _ _ => ByteRange.afterValue_start_keep)
    ByteRange.unset values with h | ⟨hnone, heq⟩
  · have hnonneg : 0 ≤ (values.foldl ByteRange.afterValue ByteRange.unset).start := by
      obtain ⟨-, item, -, -, hset, -⟩ := h
      exact setsStart_nonneg hset
    refine iff_of_false (by omega) ?_
    intro hno
    exact hno _ h
  · exact iff_of_true heq hnone

/-- The end is still, or again, unset if and only if the last value that has set it has set it to −1. -/
theorem stop_foldl_iff (values : List Str) :
    (values.foldl ByteRange.afterValue ByteRange.unset).stop = -1 ↔
      ∀ n, LastSets SetsStop values n → n = -1 := by
  rcases @foldl_lastWrite _ _ _ SetsStop ByteRange.afterValue ByteRange.stop
    (fun _ _ _ => ByteRange.afterValue_stop_set) (fun _ _ => ByteRange.afterValue_stop_keep)
    ByteRange.unset values with h | ⟨hnone, heq⟩
  · constructor
    · intro hstop n hn
      rw [← hstop]
      exact hn.unique setsStop_unique h
    · intro hall
      exact hall _ h
  · exact iff_of_true heq fun n hn => absurd hn (hnone n)

/-- The range is valid if and only if the last value with the prefix is accepted. -/
theorem isValid_foldl_iff (values : List Str) :
    (values.foldl ByteRange.afterValue ByteRange.unset).isValid = true ↔ LastSets SetsValid values true := by
  rcases @foldl_lastWrite _ _ _ SetsValid ByteRange.afterValue ByteRange.isValid
    (fun _ _ _ => ByteRange.afterValue_isValid_set) (fun _ _ => ByteRange.afterValue_isValid_keep)
    ByteRange.unset values with h | ⟨hnone, heq⟩
  · constructor
    · intro hvalid
      rwa [hvalid] at h
    · intro htrue
      exact h.unique setsValid_unique htrue
  · refine iff_of_false ?_ (hnone true)
    rw [heq]
    decide

/-- After a last value that is well formed. -/
theorem agreesWithLast_isRange {earlier : List Str} {last : Str} {start stop : Int}
    (h : IsRange last start stop) :
    ((earlier ++ [last]).foldl ByteRange.afterValue ByteRange.unset).AgreesWithLast (earlier ++ [last]) ↔
      (start = -1 → ∀ n, ¬ LastSets SetsStart earlier n) ∧
        (stop = -1 → ∀ n, LastSets SetsStop earlier n → n = -1) := by
  unfold ByteRange.AgreesWithLast
  rw [List.getLast?_concat, List.foldl_append, List.foldl_cons, List.foldl_nil, afterValue_isRange h,
    ← start_foldl_iff, ← stop_foldl_iff]
  simp only [Option.mem_some_iff, forall_eq', exists_eq_left', true_iff]
  constructor
  · rintro ⟨-, hbounds⟩
    obtain ⟨hstart, hstop⟩ := hbounds start stop h
    constructor
    · intro hnone
      rwa [if_pos hnone, hnone] at hstart
    · intro hnone
      rwa [if_pos hnone, hnone] at hstop
  · rintro ⟨hstart, hstop⟩
    refine ⟨⟨start, stop, h⟩, ?_⟩
    intro start' stop' h'
    obtain ⟨rfl, rfl⟩ := h.unique h'
    constructor
    · split_ifs with hnone
      · rw [hstart hnone, hnone]
      · rfl
    · split_ifs with hnone
      · rw [hstop hnone, hnone]
      · rfl

/-- After a last value that is not well formed. -/
theorem agreesWithLast_malformed {earlier : List Str} {last : Str}
    (h : ∀ start stop, ¬ IsRange last start stop) :
    ((earlier ++ [last]).foldl ByteRange.afterValue ByteRange.unset).AgreesWithLast (earlier ++ [last]) ↔
      ¬ LastSets SetsValid (earlier ++ [last]) true := by
  unfold ByteRange.AgreesWithLast
  rw [isValid_foldl_iff, List.getLast?_concat]
  simp [h]

theorem agreesWithLast_iff (earlier : List Str) (last : Str) :
    ((earlier ++ [last]).foldl ByteRange.afterValue ByteRange.unset).AgreesWithLast (earlier ++ [last]) ↔
      ReadByGrammar earlier last := by
  by_cases h : ∃ start stop, IsRange last start stop
  · obtain ⟨start, stop, h⟩ := h
    rw [agreesWithLast_isRange h]
    constructor
    · rintro ⟨hstart, hstop⟩
      refine ⟨?_, ?_, fun hno => absurd h (hno start stop)⟩
      · intro stop' h'
        exact hstart (h.unique h').1
      · intro start' h'
        exact hstop (h.unique h').2
    · intro hread
      constructor
      · rintro rfl
        exact hread.start stop h
      · rintro rfl
        exact hread.stop start h
  · have hno : ∀ start stop, ¬ IsRange last start stop := fun start stop hr => h ⟨start, stop, hr⟩
    rw [agreesWithLast_malformed hno]
    constructor
    · intro hvalid
      exact ⟨fun stop hr => absurd hr (hno _ _), fun start hr => absurd hr (hno _ _), fun _ => hvalid⟩
    · intro hread
      exact hread.malformed hno

/-- The header lines leave the range of the last `Range` value exactly when earlier values have set no bound
    that it leaves out, or, where it is not well formed, when `std::stoi` does not accept what decides. -/
theorem parseHeaderLines_agrees_iff {lines : List Str} {base base' : HttpBase}
    (hbase : base.range = ByteRange.unset) (h : HttpRequest.parseHeaderLines base lines = .ok base') :
    base'.range.AgreesWithLast (rangeValues lines) ↔
      ∀ earlier last, rangeValues lines = earlier ++ [last] → ReadByGrammar earlier last := by
  rw [range_parseHeaderLines h, hbase]
  rcases List.eq_nil_or_concat (rangeValues lines) with hnil | ⟨earlier, last, hlast⟩
  · rw [hnil]
    refine iff_of_true ?_ (by simp)
    simp [ByteRange.AgreesWithLast, ByteRange.unset]
  · rw [List.concat_eq_append] at hlast
    rw [hlast, agreesWithLast_iff]
    constructor
    · intro hread earlier' last' heq
      obtain ⟨rfl, hlast'⟩ := List.append_inj' heq rfl
      obtain rfl := (List.cons.inj hlast').1
      exact hread
    · intro hall
      exact hall earlier last rfl

theorem parseHeaderLines_agrees_iff_once :
    ∃ base', HttpRequest.parseHeaderLines (HttpBase.init []) [str "Range: bytes=0-99"] = .ok base' ∧
      (base'.range.AgreesWithLast (rangeValues [str "Range: bytes=0-99"]) ↔
        ∀ earlier last, rangeValues [str "Range: bytes=0-99"] = earlier ++ [last] →
          ReadByGrammar earlier last) :=
  ⟨_, rfl, parseHeaderLines_agrees_iff rfl rfl⟩

/-- A start that the first header sets is kept by the second, which has none. -/
theorem second_range_keeps_start :
    ∃ base', HttpRequest.parseHeaderLines (HttpBase.init [])
        [str "Range: bytes=5-", str "Range: bytes=-7"] = .ok base' ∧
      ¬ base'.range.AgreesWithLast (rangeValues [str "Range: bytes=5-", str "Range: bytes=-7"]) := by
  refine ⟨_, rfl, ?_⟩
  intro h
  have hstart := (h.2 (str "bytes=-7") (by decide) (-1) 7
    ⟨[], str "7", by decide, by decide, by decide, by decide, by decide, by decide, by decide, by decide⟩).1
  exact absurd hstart (by decide)

/-- A sign, white space and what follows a number are accepted. -/
example : (ByteRange.unset.afterValue (str "bytes= +5-7 bytes")) = ⟨5, 7, true⟩ := by decide

end ModularNetServer
