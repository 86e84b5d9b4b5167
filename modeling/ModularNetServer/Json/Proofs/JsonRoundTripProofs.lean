import ModularNetServer.Json.Proofs.Utf8Proofs
import ModularNetServer.Library.JsonReader

/-!
# A dumped value is read back

`dump` writes what the library's writer does, with `dump_escaped` for the strings, or throws if a string is not
UTF-8. An escape is read as the byte that it stands for, so that a reader gets the value back.
-/

namespace ModularNetServer

open Cxx Utf8

namespace Json

mutual

/-- The value as a reader has it. -/
def toValue : Json → JsonReader.Value
  | .null => .null
  | .boolean b => .boolean b
  | .number text => .number text
  | .string s => .string s
  | .array items => .array (itemsValue items)
  | .object members => .object (membersValue members)

def itemsValue : List Json → List JsonReader.Value
  | [] => []
  | v :: vs => v.toValue :: itemsValue vs

def membersValue : List (Str × Json) → List (Str × JsonReader.Value)
  | [] => []
  | (key, v) :: ms => (key, v.toValue) :: membersValue ms

end

/-- The text of a string between its quotation marks. -/
def escapedText (s : Str) : Str := (dumpEscaped s).toOption.getD []

/-! ## What `dump` writes -/

theorem dumpEscapedFrom_error {state codep : Nat} {s : Str} (h : acceptsFrom state codep s = false) :
    dumpEscapedFrom state codep s = .error (.jsonTypeError 316) := by
  induction s generalizing state codep with
  | nil =>
    unfold acceptsFrom at h
    unfold dumpEscapedFrom
    rw [if_neg (by simpa using h)]
  | cons b rest ih =>
    rw [dumpEscapedFrom_cons]
    simp only [acceptsFrom, Bool.and_eq_false_iff, bne_eq_false_iff_eq] at h
    by_cases hreject : (decode state codep b).1 = utf8Reject
    · rw [if_pos hreject]
    · rw [if_neg hreject, ih (h.resolve_left hreject)]
      rfl

/-- A string is written, or is not UTF-8. -/
theorem dumpString_eq (s : Str) :
    dumpString s =
      if isUtf8 s then .ok (0x22 :: (escapedText s ++ [0x22])) else .error (.jsonTypeError 316) := by
  unfold dumpString escapedText
  by_cases h : isUtf8 s = true
  · have hok := dumpEscapedFrom_isOk utf8Accept 0 s
    rw [if_pos h]
    rw [isUtf8] at h
    rw [h] at hok
    unfold dumpEscaped
    rcases htext : dumpEscapedFrom utf8Accept 0 s with e | text
    · rw [htext] at hok
      cases hok
    · rfl
  · rw [if_neg h]
    have hfalse : isUtf8 s = false := by simpa using h
    have herror : dumpEscaped s = .error (.jsonTypeError 316) := dumpEscapedFrom_error hfalse
    rw [herror]

/-- All strings are UTF-8. -/
def allUtf8 (strings : List Str) : Bool := strings.all isUtf8

theorem allUtf8_items (v : JsonReader.Value) (vs : List JsonReader.Value) :
    allUtf8 (JsonReader.itemsStrings (v :: vs)) = (allUtf8 v.strings && allUtf8 (JsonReader.itemsStrings vs)) :=
  List.all_append

theorem allUtf8_members (key : Str) (v : JsonReader.Value) (ms : List (Str × JsonReader.Value)) :
    allUtf8 (JsonReader.membersStrings ((key, v) :: ms)) =
      (isUtf8 key && (allUtf8 v.strings && allUtf8 (JsonReader.membersStrings ms))) :=
  congrArg (isUtf8 key && ·) List.all_append

mutual

/-- `dump` writes the value, or throws if a string is not UTF-8. -/
theorem dump_eq (j : Json) :
    j.dump = if allUtf8 j.toValue.strings then .ok (JsonReader.write escapedText j.toValue)
      else .error (.jsonTypeError 316) := by
  cases j with
  | null => rfl
  | boolean b => cases b <;> rfl
  | number text => rfl
  | string s =>
    simp only [dump, dumpString_eq, toValue, JsonReader.Value.strings, allUtf8, List.all_cons, List.all_nil,
      Bool.and_true, JsonReader.write]
  | array items =>
    rw [dump, dumpItems_eq items, toValue, JsonReader.Value.strings, JsonReader.write]
    split_ifs <;> rfl
  | object members =>
    rw [dump, dumpMembers_eq members, toValue, JsonReader.Value.strings, JsonReader.write]
    split_ifs <;> rfl

theorem dumpItems_eq : ∀ items : List Json,
    dumpItems items = if allUtf8 (JsonReader.itemsStrings (itemsValue items)) then
      .ok (JsonReader.writeItems escapedText (itemsValue items)) else .error (.jsonTypeError 316)
  | [] => rfl
  | [item] => by
    simp only [dumpItems, itemsValue, JsonReader.itemsStrings, JsonReader.writeItems, List.append_nil, dump_eq item]
  | item :: item' :: items => by
    have hrest := dumpItems_eq (item' :: items)
    simp only [itemsValue] at hrest
    have hcomma : str "," = [0x2C] := by decide
    simp only [dumpItems, itemsValue, dump_eq item, hrest, JsonReader.writeItems]
    rw [allUtf8_items item.toValue]
    by_cases hitem : allUtf8 item.toValue.strings = true
    · by_cases hitems : allUtf8 (JsonReader.itemsStrings (item'.toValue :: itemsValue items)) = true
      · simp [hitem, hitems, hcomma]
      · simp [hitem, hitems]
    · simp [hitem]

theorem dumpMembers_eq : ∀ members : List (Str × Json),
    dumpMembers members = if allUtf8 (JsonReader.membersStrings (membersValue members)) then
      .ok (JsonReader.writeMembers escapedText (membersValue members)) else .error (.jsonTypeError 316)
  | [] => rfl
  | [(key, value)] => by
    have hcolon : str ":" = [0x3A] := by decide
    simp only [dumpMembers, membersValue, dumpString_eq, dump_eq value, JsonReader.writeMembers]
    have hnone : allUtf8 (JsonReader.membersStrings []) = true := rfl
    rw [allUtf8_members key]
    by_cases hkey : isUtf8 key = true
    · by_cases hvalue : allUtf8 value.toValue.strings = true
      · simp [hkey, hvalue, hnone, hcolon]
      · simp [hkey, hvalue]
    · simp [hkey]
  | (key, value) :: (key', value') :: members => by
    have hrest := dumpMembers_eq ((key', value') :: members)
    simp only [membersValue] at hrest
    have hcolon : str ":" = [0x3A] := by decide
    have hcomma : str "," = [0x2C] := by decide
    simp only [dumpMembers, membersValue, dumpString_eq, dump_eq value, hrest, JsonReader.writeMembers]
    rw [allUtf8_members key]
    by_cases hkey : isUtf8 key = true
    · by_cases hvalue : allUtf8 value.toValue.strings = true
      · by_cases hmembers :
            allUtf8 (JsonReader.membersStrings ((key', value'.toValue) :: membersValue members)) = true
        · simp [hkey, hvalue, hmembers, hcolon, hcomma]
        · simp [hkey, hvalue, hmembers]
      · simp [hkey, hvalue]
    · simp [hkey]

end

/-! ## Escapes are read back -/

/-- The digits of a control character. -/
theorem hexUnit_hex4 {n : Nat} (hn : n ≤ 0x1F) :
    JsonReader.hexUnit 48 48 ((hex4 n).getD 2 0) ((hex4 n).getD 3 0) = some n := by
  have hall : ∀ n < 32, JsonReader.hexUnit 48 48 ((hex4 n).getD 2 0) ((hex4 n).getD 3 0) = some n := by
    decide +kernel
  exact hall n (by omega)

/-- The text of an ASCII character stands for its byte. -/
theorem writesByte_escapeCodepoint {b : UInt8} (hb : b.toNat ≤ 0x7F) :
    JsonReader.WritesByte b (escapeCodepoint b.toNat b) := by
  have hbyte : ∀ {n : Nat}, b.toNat = n → b = UInt8.ofNat n := by
    rintro n rfl
    exact UInt8.ofNat_toNat.symm
  have hcases : ∀ text : Str, escapeCodepoint b.toNat b = text → JsonReader.WritesByte b text := by
    intro text htext
    unfold escapeCodepoint at htext
    split at htext
    case h_8 h08 h09 h0A h0C h0D h22 h5C =>
      split_ifs at htext with hcontrol
      · -- a control character, by its digits
        rw [← htext]
        exact .unit _ _ _ _ (hexUnit_hex4 (by omega)) hb
      · rw [← htext]
        refine .byte ?_ ?_ ?_
        · rintro rfl
          exact h22 rfl
        · rintro rfl
          exact h5C rfl
        · show 0x20 ≤ b.toNat
          omega
    all_goals
      rename_i hcode
      rw [hbyte hcode, ← htext]
      exact .short _ (by decide) (by decide)
  exact hcases _ rfl

/-- The text of a character is read as its bytes. -/
theorem readString_escaped {bytes : Str} {n : Nat} (h : Encodes bytes n) (s : Str) :
    JsonReader.readString (escaped bytes n ++ s) = (JsonReader.readString s).map fun r => (bytes ++ r.1, r.2) := by
  by_cases hn : n ≤ 0x7F
  · rw [escaped, if_pos hn]
    cases h with
    | one a ha hcode =>
      rw [hcode, UInt8.ofNat_toNat]
      exact JsonReader.readString_writesByte (writesByte_escapeCodepoint ha) s
    | two a b ha hb hcode => omega
    | three a b c ha hb hc hshort hsurrogate hcode =>
      have := hb.1
      omega
    | four a b c d ha hb hc hd hshort hlarge hcode =>
      have := hb.1
      omega
  · rw [escaped, if_neg hn]
    exact JsonReader.readString_bytes (h.large (by omega)) s

/-- A string of characters is read back. -/
theorem readString_flatMap (cs : List Char) (s : Str) :
    JsonReader.readString ((cs.flatMap fun c => escaped (String.utf8EncodeChar c) c.toNat) ++ s) =
      (JsonReader.readString s).map fun r => (encode cs ++ r.1, r.2) := by
  induction cs with
  | nil =>
    rw [List.flatMap_nil, List.nil_append]
    cases JsonReader.readString s <;> rfl
  | cons c cs ih =>
    rw [List.flatMap_cons, List.append_assoc, readString_escaped (encodes_utf8EncodeChar c), ih, Option.map_map, encode_cons]
    cases JsonReader.readString s with
    | none => rfl
    | some r =>
      simp only [Option.map_some, Function.comp_apply, List.append_assoc]

/-- The text of a string is that of its characters. -/
theorem escapedText_encode (cs : List Char) :
    escapedText (encode cs) = cs.flatMap fun c => escaped (String.utf8EncodeChar c) c.toNat := by
  unfold escapedText
  rw [dumpEscaped_encode]
  rfl

/-- A string is read back from its text. -/
theorem readString_escapedText {s : Str} (h : IsUtf8 s) (rest : Str) :
    JsonReader.readString (escapedText s ++ 0x22 :: rest) = some (s, rest) := by
  obtain ⟨cs, rfl⟩ := h
  rw [escapedText_encode, readString_flatMap, JsonReader.readString_end, Option.map_some, List.append_nil]

/-- The text of a character is UTF-8. -/
theorem isUtf8_escaped (c : Char) : IsUtf8 (escaped (String.utf8EncodeChar c) c.toNat) := by
  unfold escaped
  split_ifs with h
  · have hascii : ∀ b : UInt8, b.toNat ≤ 0x7F → ∀ d ∈ escapeCodepoint b.toNat b, d.toNat ≤ 0x7F :=
      LetterCase.forall_byte (by decide +kernel)
    have hbyte : (UInt8.ofNat c.toNat).toNat = c.toNat := UInt8.toNat_ofNat_of_lt' (by omega : c.toNat < 256)
    have htext := hascii (UInt8.ofNat c.toNat) (by omega)
    rw [hbyte] at htext
    exact isUtf8_ascii htext
  · exact isUtf8_char c

theorem isUtf8_escapedText {s : Str} (h : IsUtf8 s) : IsUtf8 (escapedText s) := by
  obtain ⟨cs, rfl⟩ := h
  rw [escapedText_encode]
  induction cs with
  | nil => exact isUtf8_nil
  | cons c cs ih =>
    rw [List.flatMap_cons]
    exact isUtf8_append (isUtf8_escaped c) ih

/-! ## A dumped value -/

theorem allUtf8_iff (strings : List Str) : allUtf8 strings = true ↔ ∀ s ∈ strings, IsUtf8 s := by
  simp only [allUtf8, List.all_eq_true, isUtf8_iff]

/-- What is written is UTF-8, and is read as the value. -/
theorem write_reads {v : JsonReader.Value} (hstrings : ∀ s ∈ v.strings, IsUtf8 s)
    (hnumbers : ∀ text ∈ v.numbers, JsonReader.isNumber text = true) :
    IsUtf8 (JsonReader.write escapedText v) ∧ JsonReader.read (JsonReader.write escapedText v) = some v :=
  ⟨JsonReader.isUtf8_write v (fun s hs => isUtf8_escapedText (hstrings s hs)) hnumbers,
    JsonReader.read_write v ⟨fun s hs => readString_escapedText (hstrings s hs), hnumbers⟩⟩

/-- **Round trip.** `dump` throws exactly if a string of the value or the name of a member is not UTF-8. Otherwise
    its text is UTF-8, and is read as the value. -/
theorem dump_reads (j : Json) (hnumbers : ∀ text ∈ j.toValue.numbers, JsonReader.isNumber text = true) :
    ((∀ s ∈ j.toValue.strings, IsUtf8 s) ∧
      ∃ text, j.dump = .ok text ∧ IsUtf8 text ∧ JsonReader.read text = some j.toValue) ∨
    ((∃ s ∈ j.toValue.strings, ¬ IsUtf8 s) ∧ j.dump = .error (.jsonTypeError 316)) := by
  rw [dump_eq]
  by_cases hall : allUtf8 j.toValue.strings = true
  · have hstrings := (allUtf8_iff _).mp hall
    rw [if_pos hall]
    exact Or.inl ⟨hstrings, _, rfl, write_reads hstrings hnumbers⟩
  · rw [if_neg hall]
    refine Or.inr ⟨?_, rfl⟩
    by_contra hno
    push Not at hno
    exact hall ((allUtf8_iff _).mpr hno)

/-- The text of a value, which a reader reads as the value. -/
def IsText (s : Str) : Prop := IsUtf8 s ∧ ∃ j : Json, j.dump = .ok s ∧ JsonReader.read s = some j.toValue

theorem isText_dump {j : Json} {text : Str} (hnumbers : ∀ n ∈ j.toValue.numbers, JsonReader.isNumber n = true)
    (h : j.dump = .ok text) : IsText text := by
  have hdump := h
  rw [dump_eq] at h
  by_cases hall : allUtf8 j.toValue.strings = true
  · obtain ⟨hutf8, hread⟩ := write_reads ((allUtf8_iff _).mp hall) hnumbers
    rw [if_pos hall] at h
    cases h
    exact ⟨hutf8, j, hdump, hread⟩
  · rw [if_neg hall] at h
    cases h

/-- A value with a name that is escaped, and a string that is not ASCII. -/
def nested : Json :=
  .object [(str "a\n\"", .array [.number (str "-1.5e3"), .string (str "\\é"), .null]), (str "b", .boolean true)]

theorem dump_reads_nested :
    ((∀ s ∈ nested.toValue.strings, IsUtf8 s) ∧
      ∃ text, nested.dump = .ok text ∧ IsUtf8 text ∧ JsonReader.read text = some nested.toValue) ∨
    ((∃ s ∈ nested.toValue.strings, ¬ IsUtf8 s) ∧ nested.dump = .error (.jsonTypeError 316)) :=
  dump_reads nested (by decide)

end Json

end ModularNetServer
