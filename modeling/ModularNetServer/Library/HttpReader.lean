import ModularNetServer.Library.CxxText
import ModularNetServer.Library.LetterCase

/-!
# Reading an HTTP/1.1 response

The reader takes the status line, the header fields up to the empty line, and as many bytes of a body as the
one `Content-Length` announces. What is left belongs to the next response. Field names are compared without
regard to their letter case, and the blanks around a field value do not belong to it.
-/

namespace HttpReader

open Cxx LetterCase

/-- A response with its header fields as names and values. -/
structure Response where
  version : Str
  code : Str
  reason : Str
  fields : List (Str × Str)
  body : Str

/-- Whether a response has the body that its header announces, by its status code and its header fields: a
    reader may know status codes that come without one. -/
abbrev BodyRule := Str → List (Str × Str) → Bool

/-- Every response has the body that is announced. -/
def always : BodyRule := fun _ _ => true

/-! ## The reader -/

/-- The text before the first occurrence of a mark, and the text after it. -/
def cut (mark s : Str) : Option (Str × Str) :=
  match Scan.find mark s with
  | none => none
  | some pos => some (s.take pos, s.drop (pos + mark.length))

/-- The end of a line. -/
def crlf : Str := [13, 10]

/-- A blank around a field value. -/
def isBlank (b : UInt8) : Bool := b == 32 || b == 9

/-- A field value without the blanks around it. -/
def strip (s : Str) : Str := ((s.dropWhile isBlank).reverse.dropWhile isBlank).reverse

/-- Version, status code and reason of a status line. -/
def readStatus (line : Str) : Option (Str × Str × Str) :=
  match cut [32] line with
  | none => none
  | some (version, rest) =>
    match cut [32] rest with
    | none => none
    | some (code, reason) => some (version, code, reason)

/-- Name and value of a header field. -/
def readField (line : Str) : Option (Str × Str) :=
  match cut [58] line with
  | none => none
  | some (name, value) => some (name, strip value)

theorem cut_length_lt {mark s line rest : Str} (hmark : mark ≠ []) (h : cut mark s = some (line, rest)) :
    rest.length < s.length := by
  unfold cut at h
  split at h
  · cases h
  · rename_i pos hpos
    cases h
    have hle := Scan.find_some_le hpos
    have hlen := List.length_pos_of_ne_nil hmark
    rw [List.length_drop]
    omega

/-- The header fields up to the empty line, and what follows it. -/
def readFields (s : Str) : Option (List (Str × Str) × Str) :=
  match h : cut crlf s with
  | none => none
  | some (line, rest) =>
    have : rest.length < s.length := cut_length_lt (by decide) h
    if line = [] then some ([], rest)
    else
      match readField line with
      | none => none
      | some field =>
        match readFields rest with
        | none => none
        | some (fields, rest) => some (field :: fields, rest)
termination_by s.length

/-- The values of the fields with a name, in whatever letter case. -/
def valuesOf (name : Str) (fields : List (Str × Str)) : List Str :=
  (fields.filter fun field => Same field.1 name).map Prod.snd

/-- The number that is written in decimal. -/
def readNumber (s : Str) : Option Nat :=
  if s ≠ [] ∧ ∀ d ∈ s, isDigit d = true then some (digitsValue s) else none

/-- The length of the body, if it is announced exactly once. -/
def contentLength (fields : List (Str × Str)) : Option Nat :=
  match valuesOf (str "Content-Length") fields with
  | [value] => readNumber value
  | _ => none

/-- The body of a response, and what follows it. -/
def readBody (hasBody : BodyRule) (code : Str) (fields : List (Str × Str)) (s : Str) : Option (Str × Str) :=
  if hasBody code fields then
    match contentLength fields with
    | none => none
    | some n => if s.length < n then none else some (s.take n, s.drop n)
  else some ([], s)

/-- The first response of a text, and what follows it. -/
def read (hasBody : BodyRule) (s : Str) : Option (Response × Str) :=
  match cut crlf s with
  | none => none
  | some (line, rest) =>
    match readStatus line with
    | none => none
    | some (version, code, reason) =>
      match readFields rest with
      | none => none
      | some (fields, rest) =>
        match readBody hasBody code fields rest with
        | none => none
        | some (body, rest) => some (⟨version, code, reason, fields, body⟩, rest)

/-! ## Reading what has been written -/

/-- A field that survives being written as a line. -/
structure IsField (field : Str × Str) : Prop where
  name : ∀ b ∈ field.1, b ≠ 58 ∧ b ≠ 13
  value : ∀ b ∈ field.2, b ≠ 13

/-- The line of a field. -/
def fieldLine (field : Str × Str) : Str := field.1 ++ 58 :: field.2

/-- The field as it is read. -/
def stripped (field : Str × Str) : Str × Str := (field.1, strip field.2)

/-- The response as a text. -/
def write (r : Response) : Str :=
  r.version ++ 32 :: (r.code ++ 32 :: r.reason) ++ crlf ++
    ((r.fields.map fun field => fieldLine field ++ crlf).flatten ++ crlf ++ r.body)

/-- The response survives being written, for a reader that takes its body. -/
structure IsWritable (hasBody : BodyRule) (r : Response) : Prop where
  version : ∀ b ∈ r.version, b ≠ 32 ∧ b ≠ 13
  code : ∀ b ∈ r.code, b ≠ 32 ∧ b ≠ 13
  reason : ∀ b ∈ r.reason, b ≠ 13
  fields : ∀ field ∈ r.fields, IsField field
  contentLength : contentLength (r.fields.map stripped) = some r.body.length
  hasBody : hasBody r.code (r.fields.map stripped) = true

/-- A mark is found right after a text that its first byte is not in. -/
theorem cut_append {c : UInt8} {mark w : Str} (hw : ∀ b ∈ w, b ≠ c) (rest : Str) :
    cut (c :: mark) (w ++ (c :: mark) ++ rest) = some (w, rest) := by
  have hdrop : (w ++ (c :: mark) ++ rest).drop (w.length + (c :: mark).length) = rest :=
    List.drop_left' List.length_append
  unfold cut
  rw [Scan.find_append_of_forall_ne w rest hw]
  dsimp only
  rw [hdrop, List.append_assoc, List.take_left]

theorem readField_fieldLine {field : Str × Str} (h : IsField field) :
    readField (fieldLine field) = some (stripped field) := by
  have hcut := @cut_append 58 [] field.1 (fun b hb => (h.name b hb).1) field.2
  rw [List.append_assoc] at hcut
  unfold readField fieldLine
  rw [show field.1 ++ 58 :: field.2 = field.1 ++ ([58] ++ field.2) from rfl, hcut]
  rfl

theorem fieldLine_noCr {field : Str × Str} (h : IsField field) : ∀ b ∈ fieldLine field, b ≠ 13 := by
  intro b hb
  rcases List.mem_append.mp hb with hb | hb
  · exact (h.name b hb).2
  · rcases List.mem_cons.mp hb with rfl | hb
    · decide
    · exact h.value b hb

/-- What the reader makes of the next line. -/
theorem readFields_of_cut {s line rest : Str} (h : cut crlf s = some (line, rest)) :
    readFields s = if line = [] then some ([], rest)
      else
        match readField line with
        | none => none
        | some field =>
          match readFields rest with
          | none => none
          | some (fields, rest) => some (field :: fields, rest) := by
  rw [readFields]
  split
  · rename_i hnone
    rw [h] at hnone
    cases hnone
  · rename_i line' rest' hsome
    rw [h] at hsome
    cases hsome
    rfl

/-- The lines of some fields are read as these fields. -/
theorem readFields_lines {fields : List (Str × Str)} (h : ∀ field ∈ fields, IsField field) (rest : Str) :
    readFields ((fields.map fun field => fieldLine field ++ crlf).flatten ++ crlf ++ rest) =
      some (fields.map stripped, rest) := by
  induction fields with
  | nil =>
    have hcut : cut crlf (crlf ++ rest) = some ([], rest) := @cut_append 13 [10] [] (by simp) rest
    rw [List.map_nil, List.flatten_nil, List.nil_append, readFields_of_cut hcut]
    rfl
  | cons field fields ih =>
    have hfield := h field (by simp)
    have hrest := ih fun f hf => h f (List.mem_cons_of_mem _ hf)
    have hcut : cut crlf (fieldLine field ++ crlf ++
        ((fields.map fun field => fieldLine field ++ crlf).flatten ++ crlf ++ rest)) =
          some (fieldLine field, (fields.map fun field => fieldLine field ++ crlf).flatten ++ crlf ++ rest) :=
      cut_append (fieldLine_noCr hfield) _
    have hne : fieldLine field ≠ [] := by simp [fieldLine]
    rw [List.map_cons, List.flatten_cons, List.append_assoc, List.append_assoc, ← List.append_assoc _ crlf rest,
      readFields_of_cut hcut, if_neg hne, readField_fieldLine hfield]
    dsimp only
    rw [hrest]
    rfl

theorem readStatus_line {version code reason : Str} (hversion : ∀ b ∈ version, b ≠ 32)
    (hcode : ∀ b ∈ code, b ≠ 32) :
    readStatus (version ++ 32 :: (code ++ 32 :: reason)) = some (version, code, reason) := by
  have hfirst := @cut_append 32 [] version hversion (code ++ 32 :: reason)
  have hsecond := @cut_append 32 [] code hcode reason
  rw [List.append_assoc] at hfirst hsecond
  unfold readStatus
  rw [show version ++ 32 :: (code ++ 32 :: reason) = version ++ ([32] ++ (code ++ 32 :: reason)) from rfl,
    hfirst]
  dsimp only
  rw [show code ++ 32 :: reason = code ++ ([32] ++ reason) from rfl, hsecond]

/-- A number that is written in decimal is read. -/
theorem readNumber_decimal (n : Nat) : readNumber (decimal n) = some n := by
  unfold readNumber
  rw [if_pos ⟨decimal_ne_nil n, fun d hd => isDigit_of_mem_decimal hd⟩, digitsValue_decimal]

/-- A blank before a value is stripped. -/
theorem strip_blank (value : Str) : strip (32 :: value) = strip value := rfl

theorem dropWhile_blank {value : Str} (h : ∀ b ∈ value, isBlank b = false) :
    value.dropWhile isBlank = value := by
  cases value with
  | nil => rfl
  | cons b value => rw [List.dropWhile_cons_of_neg (by simp [h b (by simp)])]

/-- A value without blanks is read as it is. -/
theorem strip_of_noBlank {value : Str} (h : ∀ b ∈ value, isBlank b = false) : strip value = value := by
  have hreverse : ∀ b ∈ value.reverse, isBlank b = false := fun b hb => h b (List.mem_reverse.mp hb)
  unfold strip
  rw [dropWhile_blank h, dropWhile_blank hreverse, List.reverse_reverse]

theorem valuesOf_cons (name : Str) (field : Str × Str) (fields : List (Str × Str)) :
    valuesOf name (field :: fields) =
      if Same field.1 name then field.2 :: valuesOf name fields else valuesOf name fields := by
  unfold valuesOf
  split_ifs with h
  · rw [List.filter_cons_of_pos (by simpa using h), List.map_cons]
  · rw [List.filter_cons_of_neg (by simpa using h)]

theorem valuesOf_append (name : Str) (fields fields' : List (Str × Str)) :
    valuesOf name (fields ++ fields') = valuesOf name fields ++ valuesOf name fields' := by
  unfold valuesOf
  rw [List.filter_append, List.map_append]

/-- Fields with other names have no values of a name. -/
theorem valuesOf_eq_nil {name : Str} {fields : List (Str × Str)} (h : ∀ field ∈ fields, ¬ Same field.1 name) :
    valuesOf name fields = [] := by
  unfold valuesOf
  rw [List.map_eq_nil_iff, List.filter_eq_nil_iff]
  intro field hfield
  simpa using h field hfield

/-- The head of a response that has been written is read back; the body is read by its rule. -/
theorem read_head {hasBody : BodyRule} {r : Response} (hversion : ∀ b ∈ r.version, b ≠ 32 ∧ b ≠ 13)
    (hcode : ∀ b ∈ r.code, b ≠ 32 ∧ b ≠ 13) (hreason : ∀ b ∈ r.reason, b ≠ 13)
    (hfields : ∀ field ∈ r.fields, IsField field) (rest : Str) :
    read hasBody (write r ++ rest) =
      (readBody hasBody r.code (r.fields.map stripped) (r.body ++ rest)).map fun p =>
        (⟨r.version, r.code, r.reason, r.fields.map stripped, p.1⟩, p.2) := by
  have hline : ∀ b ∈ r.version ++ 32 :: (r.code ++ 32 :: r.reason), b ≠ 13 := by
    intro b hb
    simp only [List.mem_append, List.mem_cons] at hb
    rcases hb with hb | rfl | hb | rfl | hb
    · exact (hversion b hb).2
    · decide
    · exact (hcode b hb).2
    · decide
    · exact hreason b hb
  have hcut : cut crlf (write r ++ rest) = some (r.version ++ 32 :: (r.code ++ 32 :: r.reason),
      (r.fields.map fun field => fieldLine field ++ crlf).flatten ++ crlf ++ (r.body ++ rest)) := by
    unfold write
    rw [List.append_assoc, ← List.append_assoc _ r.body rest]
    exact cut_append hline _
  unfold read
  rw [hcut]
  dsimp only
  rw [readStatus_line (fun b hb => (hversion b hb).1) fun b hb => (hcode b hb).1]
  dsimp only
  rw [readFields_lines hfields]
  dsimp only
  rcases readBody hasBody r.code (r.fields.map stripped) (r.body ++ rest) with _ | ⟨body, rest⟩
  · rfl
  · rfl

/-- A response that has been written is read back, and what follows it is left. -/
theorem read_write {hasBody : BodyRule} {r : Response} (h : IsWritable hasBody r) (rest : Str) :
    read hasBody (write r ++ rest) = some (⟨r.version, r.code, r.reason, r.fields.map stripped, r.body⟩, rest) := by
  have hbody : readBody hasBody r.code (r.fields.map stripped) (r.body ++ rest) = some (r.body, rest) := by
    unfold readBody
    rw [if_pos h.hasBody, h.contentLength]
    dsimp only
    rw [if_neg (by simp), List.take_left, List.drop_left]
  rw [read_head h.version h.code h.reason h.fields, hbody, Option.map_some]

/-! ## Input that grows -/

/-- More input does not change where a text is cut. -/
theorem cut_extend {mark s line rest : Str} (h : cut mark s = some (line, rest)) (more : Str) :
    cut mark (s ++ more) = some (line, rest ++ more) := by
  unfold cut at h ⊢
  rcases hfind : Scan.find mark s with _ | pos
  · simp only [hfind] at h
    cases h
  · simp only [hfind] at h
    cases h
    have hle := Scan.find_some_le hfind
    rw [Scan.find_append hfind]
    dsimp only
    rw [List.take_append_of_le_length (by omega), List.drop_append_of_le_length hle]

/-- The last step of reading fields, read backwards. -/
theorem readFields_some {s rest : Str} {fields : List (Str × Str)} (h : readFields s = some (fields, rest)) :
    (fields = [] ∧ cut crlf s = some ([], rest)) ∨
      ∃ line rest' field fields', fields = field :: fields' ∧ cut crlf s = some (line, rest') ∧ line ≠ [] ∧
        readField line = some field ∧ readFields rest' = some (fields', rest) := by
  rcases hcut : cut crlf s with _ | ⟨line, rest'⟩
  · rw [readFields] at h
    split at h
    · cases h
    · rename_i hsome
      cases hcut.symm.trans hsome
  rw [readFields_of_cut hcut] at h
  by_cases hline : line = []
  · rw [if_pos hline] at h
    cases h
    exact .inl ⟨rfl, by rw [hline]⟩
  rw [if_neg hline] at h
  rcases hfield : readField line with _ | field
  all_goals simp only [hfield] at h
  · cases h
  rcases hrest : readFields rest' with _ | ⟨fields', rest''⟩
  all_goals simp only [hrest] at h
  · cases h
  · cases h
    exact .inr ⟨line, rest', field, fields', rfl, rfl, hline, hfield, hrest⟩

theorem readFields_extend {s rest : Str} {fields : List (Str × Str)} (h : readFields s = some (fields, rest))
    (more : Str) : readFields (s ++ more) = some (fields, rest ++ more) := by
  induction fields generalizing s with
  | nil =>
    rcases readFields_some h with ⟨-, hcut⟩ | ⟨_, _, _, _, hcons, -⟩
    · rw [readFields_of_cut (cut_extend hcut more), if_pos rfl]
    · cases hcons
  | cons field fields ih =>
    rcases readFields_some h with ⟨hnil, -⟩ | ⟨line, rest', _, _, hcons, hcut, hline, hfield, hrest⟩
    · cases hnil
    · cases hcons
      rw [readFields_of_cut (cut_extend hcut more), if_neg hline, hfield]
      simp only [ih hrest]

theorem readFields_length_lt {s rest : Str} {fields : List (Str × Str)} (h : readFields s = some (fields, rest)) :
    rest.length < s.length := by
  induction fields generalizing s with
  | nil =>
    rcases readFields_some h with ⟨-, hcut⟩ | ⟨_, _, _, _, hcons, -⟩
    · exact cut_length_lt (by decide) hcut
    · cases hcons
  | cons field fields ih =>
    rcases readFields_some h with ⟨hnil, -⟩ | ⟨_, _, _, _, hcons, hcut, -, -, hrest⟩
    · cases hnil
    · cases hcons
      exact (ih hrest).trans (cut_length_lt (by decide) hcut)

theorem readBody_extend {hasBody : BodyRule} {code s body rest : Str} {fields : List (Str × Str)}
    (h : readBody hasBody code fields s = some (body, rest)) (more : Str) :
    readBody hasBody code fields (s ++ more) = some (body, rest ++ more) := by
  unfold readBody at h ⊢
  split_ifs at h ⊢
  · rcases hlength : contentLength fields with _ | n
    all_goals simp only [hlength] at h ⊢
    · cases h
    · split_ifs at h with hshort
      cases h
      rw [if_neg (by rw [List.length_append]; omega), List.take_append_of_le_length (by omega),
        List.drop_append_of_le_length (by omega)]
  · cases h
    rfl

theorem readBody_length_le {hasBody : BodyRule} {code s body rest : Str} {fields : List (Str × Str)}
    (h : readBody hasBody code fields s = some (body, rest)) : rest.length ≤ s.length := by
  unfold readBody at h
  split_ifs at h
  · split at h
    · cases h
    · split_ifs at h
      cases h
      exact List.drop_suffix _ _ |>.length_le
  · cases h
    exact le_rfl

/-- The parts of a response that is read. -/
theorem read_some {hasBody : BodyRule} {s rest : Str} {r : Response} (h : read hasBody s = some (r, rest)) :
    ∃ line rest₁ rest₂, cut crlf s = some (line, rest₁) ∧ readStatus line = some (r.version, r.code, r.reason) ∧
      readFields rest₁ = some (r.fields, rest₂) ∧
      readBody hasBody r.code r.fields rest₂ = some (r.body, rest) := by
  unfold read at h
  rcases hcut : cut crlf s with _ | ⟨line, rest₁⟩
  all_goals simp only [hcut] at h
  · cases h
  rcases hstatus : readStatus line with _ | ⟨version, code, reason⟩
  all_goals simp only [hstatus] at h
  · cases h
  rcases hfields : readFields rest₁ with _ | ⟨fields, rest₂⟩
  all_goals simp only [hfields] at h
  · cases h
  rcases hbody : readBody hasBody code fields rest₂ with _ | ⟨body, rest₃⟩
  all_goals simp only [hbody] at h
  · cases h
  · cases h
    exact ⟨line, rest₁, rest₂, rfl, hstatus, hfields, hbody⟩

/-- More input does not change the first response. -/
theorem read_extend {hasBody : BodyRule} {s rest : Str} {r : Response} (h : read hasBody s = some (r, rest))
    (more : Str) : read hasBody (s ++ more) = some (r, rest ++ more) := by
  obtain ⟨line, rest₁, rest₂, hcut, hstatus, hfields, hbody⟩ := read_some h
  unfold read
  simp only [cut_extend hcut more, hstatus, readFields_extend hfields more, readBody_extend hbody more]

theorem read_length_lt {hasBody : BodyRule} {s rest : Str} {r : Response} (h : read hasBody s = some (r, rest)) :
    rest.length < s.length := by
  obtain ⟨line, rest₁, rest₂, hcut, -, hfields, hbody⟩ := read_some h
  have hlt := cut_length_lt (by decide) hcut
  have hlt' := readFields_length_lt hfields
  have hle := readBody_length_le hbody
  omega

/-! ## Responses one after the other -/

/-- The responses at the start of a text, and what follows them. -/
def readAll (hasBody : BodyRule) (s : Str) : List Response × Str :=
  match h : read hasBody s with
  | none => ([], s)
  | some (r, rest) =>
    have : rest.length < s.length := read_length_lt h
    (r :: (readAll hasBody rest).1, (readAll hasBody rest).2)
termination_by s.length

theorem readAll_of_none {hasBody : BodyRule} {s : Str} (h : read hasBody s = none) :
    readAll hasBody s = ([], s) := by
  rw [readAll]
  split
  · rfl
  · rename_i hsome
    cases h.symm.trans hsome

theorem readAll_of_some {hasBody : BodyRule} {s rest : Str} {r : Response}
    (h : read hasBody s = some (r, rest)) :
    readAll hasBody s = (r :: (readAll hasBody rest).1, (readAll hasBody rest).2) := by
  rw [readAll]
  split
  · rename_i hnone
    cases h.symm.trans hnone
  · rename_i hsome
    cases h.symm.trans hsome
    rfl

/-- Of a response that has not been written to its end nothing is read. -/
theorem read_partial {hasBody : BodyRule} {r : Response} {part more : Str}
    (h : read hasBody (part ++ more) = some (r, [])) (hmore : more ≠ []) : read hasBody part = none := by
  rcases hread : read hasBody part with _ | ⟨r', rest⟩
  · rfl
  · rw [read_extend hread more, Option.some.injEq, Prod.mk.injEq] at h
    exact absurd (List.append_eq_nil_iff.mp h.2).2 hmore

/-- Texts that are read as one response each are read one after the other. -/
theorem readAll_flatten {hasBody : BodyRule} {texts : List Str} {responses : List Response}
    (h : List.Forall₂ (fun s r => read hasBody s = some (r, [])) texts responses) (more : Str) :
    readAll hasBody (texts.flatten ++ more) =
      (responses ++ (readAll hasBody more).1, (readAll hasBody more).2) := by
  induction h with
  | nil => rfl
  | @cons s r texts responses hread _ ih =>
    have hfirst := read_extend hread (texts.flatten ++ more)
    rw [List.nil_append] at hfirst
    rw [List.flatten_cons, List.append_assoc, readAll_of_some hfirst, ih]
    rfl

end HttpReader
