import ModularNetServer.Library.Utf8
import ModularNetServer.Library.CxxText

/-!
# Reading JSON

The reader takes one value, with blanks wherever the grammar has them. Strings are byte strings: escapes stand for
the bytes of the characters that they name, and other bytes are taken as they are. A number is kept as its text.
-/

namespace JsonReader

open Cxx

/-- A value. The members of an object are in the order of the text. -/
inductive Value
  | null
  | boolean (b : Bool)
  | number (text : Str)
  | string (s : Str)
  | array (items : List Value)
  | object (members : List (Str × Value))

/-! ## Strings -/

/-- What a string is made of: a byte, or a code unit by its number. -/
inductive Piece
  | byte (b : UInt8)
  | unit (n : Nat)

/-- The byte that a short escape stands for. -/
def unescape (b : UInt8) : Option UInt8 :=
  if b = 0x22 ∨ b = 0x5C ∨ b = 0x2F then some b
  else if b = 0x62 then some 0x08
  else if b = 0x66 then some 0x0C
  else if b = 0x6E then some 0x0A
  else if b = 0x72 then some 0x0D
  else if b = 0x74 then some 0x09
  else none

/-- The value of a hexadecimal digit. -/
def hexDigit (b : UInt8) : Option Nat :=
  if 0x30 ≤ b ∧ b ≤ 0x39 then some (b.toNat - 0x30)
  else if 0x61 ≤ b ∧ b ≤ 0x66 then some (b.toNat - 0x57)
  else if 0x41 ≤ b ∧ b ≤ 0x46 then some (b.toNat - 0x37)
  else none

/-- The code unit of four digits. -/
def hexUnit (a b c d : UInt8) : Option Nat :=
  match hexDigit a, hexDigit b, hexDigit c, hexDigit d with
  | some a, some b, some c, some d => some (((a * 16 + b) * 16 + c) * 16 + d)
  | _, _, _, _ => none

/-- Puts a piece in front of what has been read. -/
def consPiece (p : Piece) (r : Option (List Piece × Str)) : Option (List Piece × Str) :=
  r.map fun read => (p :: read.1, read.2)

/-- The pieces of a string up to its closing quotation mark, and what follows it. -/
def readPieces : Str → Option (List Piece × Str)
  | [] => none
  | b :: s =>
    if b = 0x22 then some ([], s)
    else if b = 0x5C then
      match s with
      | [] => none
      | e :: s =>
        if e = 0x75 then
          match s with
          | a :: b :: c :: d :: s =>
            match hexUnit a b c d with
            | none => none
            | some n => consPiece (.unit n) (readPieces s)
          | _ => none
        else
          match unescape e with
          | none => none
          | some c => consPiece (.byte c) (readPieces s)
    else if b < 0x20 then none
    else consPiece (.byte b) (readPieces s)

/-- The bytes that the pieces stand for: two surrogates stand for one character, and none stands alone. -/
def assemble : List Piece → Option Str
  | [] => some []
  | .byte b :: ps => (assemble ps).map (b :: ·)
  | .unit n :: ps =>
    if n < 0xD800 ∨ 0xDFFF < n then (assemble ps).map (String.utf8EncodeChar (Char.ofNat n) ++ ·)
    else if n < 0xDC00 then
      match ps with
      | .unit m :: ps =>
        if 0xDC00 ≤ m ∧ m ≤ 0xDFFF then
          (assemble ps).map
            (String.utf8EncodeChar (Char.ofNat (0x10000 + (n - 0xD800) * 0x400 + (m - 0xDC00))) ++ ·)
        else none
      | _ => none
    else none

/-- A string after its opening quotation mark, and what follows it. -/
def readString (s : Str) : Option (Str × Str) :=
  match readPieces s with
  | none => none
  | some (pieces, rest) => (assemble pieces).map fun text => (text, rest)

/-! ## Numbers -/

/-- The integer part. -/
def afterInteger : Str → Option Str
  | [] => none
  | b :: s => if b = 0x30 then some s else if isDigit b then some (s.dropWhile isDigit) else none

/-- The fraction, if there is one. -/
def afterFraction : Str → Option Str
  | [] => some []
  | b :: s =>
    if b = 0x2E then
      match s with
      | [] => none
      | d :: s => if isDigit d then some (s.dropWhile isDigit) else none
    else some (b :: s)

/-- The exponent, if there is one. -/
def afterExponent : Str → Option Str
  | [] => some []
  | b :: s =>
    if b = 0x65 ∨ b = 0x45 then
      match (if s.head? = some 0x2B ∨ s.head? = some 0x2D then s.tail else s) with
      | [] => none
      | d :: s => if isDigit d then some (s.dropWhile isDigit) else none
    else some (b :: s)

/-- The text is a number. -/
def isNumber (s : Str) : Bool :=
  (((afterInteger (if s.head? = some 0x2D then s.tail else s)).bind afterFraction).bind afterExponent) == some []

/-- A byte that numbers are written with. -/
def isNumberByte (b : UInt8) : Bool :=
  isDigit b || b == 0x2B || b == 0x2D || b == 0x2E || b == 0x45 || b == 0x65

/-- A number, as far as its bytes go, and what follows it. -/
def readNumber (s : Str) : Option (Str × Str) :=
  if isNumber (s.takeWhile isNumberByte) then some (s.takeWhile isNumberByte, s.dropWhile isNumberByte) else none

/-! ## Values -/

def isBlank (b : UInt8) : Bool := b == 0x20 || b == 0x09 || b == 0x0A || b == 0x0D

/-- The text without the blanks in front of it. -/
def skip (s : Str) : Str := s.dropWhile isBlank

/-- A word that stands for a value. -/
def readWord (word : Str) (v : Value) (s : Str) : Option (Value × Str) :=
  if word <+: s then some (v, s.drop word.length) else none

mutual

/-- A value, and what follows it. The number bounds the recursion. -/
def readValue : Nat → Str → Option (Value × Str)
  | 0, _ => none
  | fuel + 1, s =>
    match skip s with
    | [] => none
    | b :: s =>
      if b = 0x22 then (readString s).map fun r => (.string r.1, r.2)
      else if b = 0x5B then
        if (skip s).head? = some 0x5D then some (.array [], (skip s).tail)
        else (readItems fuel s).map fun r => (.array r.1, r.2)
      else if b = 0x7B then
        if (skip s).head? = some 0x7D then some (.object [], (skip s).tail)
        else (readMembers fuel s).map fun r => (.object r.1, r.2)
      else if b = 0x6E then readWord (str "null") .null (b :: s)
      else if b = 0x74 then readWord (str "true") (.boolean true) (b :: s)
      else if b = 0x66 then readWord (str "false") (.boolean false) (b :: s)
      else (readNumber (b :: s)).map fun r => (.number r.1, r.2)

/-- The elements of an array up to its end, and what follows it. -/
def readItems : Nat → Str → Option (List Value × Str)
  | 0, _ => none
  | fuel + 1, s =>
    match readValue fuel s with
    | none => none
    | some (v, rest) =>
      match skip rest with
      | [] => none
      | b :: rest =>
        if b = 0x2C then (readItems fuel rest).map fun r => (v :: r.1, r.2)
        else if b = 0x5D then some ([v], rest)
        else none

/-- The members of an object up to its end, and what follows it. -/
def readMembers : Nat → Str → Option (List (Str × Value) × Str)
  | 0, _ => none
  | fuel + 1, s =>
    match skip s with
    | [] => none
    | b :: s =>
      if b = 0x22 then
        match readString s with
        | none => none
        | some (key, rest) =>
          match skip rest with
          | [] => none
          | b :: rest =>
            if b = 0x3A then
              match readValue fuel rest with
              | none => none
              | some (v, rest) =>
                match skip rest with
                | [] => none
                | b :: rest =>
                  if b = 0x2C then (readMembers fuel rest).map fun r => ((key, v) :: r.1, r.2)
                  else if b = 0x7D then some ([(key, v)], rest)
                  else none
            else none
      else none

end

/-- The value that a text is. A value takes fewer steps than twice its bytes. -/
def read (s : Str) : Option Value :=
  match readValue (2 * s.length) s with
  | none => none
  | some (v, rest) => if skip rest = [] then some v else none

/-! ## Strings are read back -/

/-- The text is a byte that needs no escape, or an escape for it. -/
inductive WritesByte (b : UInt8) : Str → Prop
  | byte (hquote : b ≠ 0x22) (hescape : b ≠ 0x5C) (hcontrol : 0x20 ≤ b) : WritesByte b [b]
  | short (e : UInt8) (hunit : e ≠ 0x75) (he : unescape e = some b) : WritesByte b [0x5C, e]
  | unit (a₁ a₂ a₃ a₄ : UInt8) (hunit : hexUnit a₁ a₂ a₃ a₄ = some b.toNat) (hascii : b.toNat ≤ 0x7F) :
      WritesByte b [0x5C, 0x75, a₁, a₂, a₃, a₄]

/-- A quotation mark ends a string. -/
theorem readString_end (s : Str) : readString (0x22 :: s) = some ([], s) := by
  unfold readString
  rw [readPieces.eq_def]
  rfl

/-- A piece that stands for some bytes adds them to the string. -/
theorem readString_piece {p : Piece} {text s s' : Str} (hread : readPieces s' = consPiece p (readPieces s))
    (hassemble : ∀ ps, assemble (p :: ps) = (assemble ps).map (text ++ ·)) :
    readString s' = (readString s).map fun r => (text ++ r.1, r.2) := by
  unfold readString
  rw [hread]
  rcases readPieces s with _ | ⟨ps, rest⟩
  · rfl
  · show (assemble (p :: ps)).map _ = _
    rw [hassemble, Option.map_map, Option.map_map]
    rfl

theorem assemble_byte (b : UInt8) (ps : List Piece) : assemble (.byte b :: ps) = (assemble ps).map ([b] ++ ·) := by
  rw [assemble]
  rfl

theorem char_ascii (b : UInt8) : b.toNat ≤ 0x7F → (Char.ofNat b.toNat).toNat = b.toNat := by
  revert b
  exact LetterCase.forall_byte (by decide +kernel)

/-- A code unit below 0x80 stands for one byte. -/
theorem assemble_ascii {b : UInt8} (hb : b.toNat ≤ 0x7F) (ps : List Piece) :
    assemble (.unit b.toNat :: ps) = (assemble ps).map ([b] ++ ·) := by
  have hchar : (Char.ofNat b.toNat).toNat = b.toNat := char_ascii b hb
  rw [assemble.eq_def]
  dsimp only
  rw [if_pos (by omega), Utf8.utf8EncodeChar_eq, hchar, if_pos hb, UInt8.ofNat_toNat]

/-- The text of a byte is read as the byte. -/
theorem readString_writesByte {b : UInt8} {text : Str} (h : WritesByte b text) (s : Str) :
    readString (text ++ s) = (readString s).map fun r => ([b] ++ r.1, r.2) := by
  cases h with
  | byte hquote hescape hcontrol =>
    refine readString_piece ?_ (assemble_byte b)
    rw [List.singleton_append, readPieces.eq_def]
    dsimp only
    rw [if_neg hquote, if_neg hescape, if_neg (UInt8.not_lt.mpr hcontrol)]
  | short e hunit he =>
    refine readString_piece ?_ (assemble_byte b)
    show readPieces (0x5C :: e :: s) = _
    rw [readPieces.eq_def]
    dsimp only
    rw [if_neg (by decide), if_pos rfl, if_neg hunit, he]
  | unit a₁ a₂ a₃ a₄ hunit hascii =>
    refine readString_piece ?_ (assemble_ascii hascii)
    show readPieces (0x5C :: 0x75 :: a₁ :: a₂ :: a₃ :: a₄ :: s) = _
    rw [readPieces.eq_def]
    dsimp only
    rw [if_neg (by decide), if_pos rfl, if_pos rfl, hunit]

/-- Bytes that need no escape are copied. -/
theorem readString_bytes {bytes : Str} (h : ∀ b ∈ bytes, 0x80 ≤ b) (s : Str) :
    readString (bytes ++ s) = (readString s).map fun r => (bytes ++ r.1, r.2) := by
  induction bytes with
  | nil =>
    rw [List.nil_append]
    cases readString s <;> rfl
  | cons b bytes ih =>
    rw [List.forall_mem_cons] at h
    obtain ⟨hb, hbytes⟩ := h
    have hb' : 0x80 ≤ b.toNat := hb
    have hbyte : WritesByte b [b] := by
      refine .byte ?_ ?_ ?_
      · rintro rfl
        exact absurd hb (by decide)
      · rintro rfl
        exact absurd hb (by decide)
      · show 0x20 ≤ b.toNat
        omega
    rw [← List.singleton_append, List.append_assoc, readString_writesByte hbyte, ih hbytes, Option.map_map]
    rfl

/-! ## Numbers are read back -/

/-- What is left of a text has the property, and what is dropped has it as well. -/
theorem forall_of_dropWhile {p : UInt8 → Bool} {q : UInt8 → Prop} (hpq : ∀ b, p b = true → q b) {s : Str}
    (h : ∀ b ∈ s.dropWhile p, q b) : ∀ b ∈ s, q b := by
  intro b hb
  rw [← List.takeWhile_append_dropWhile (p := p) (l := s), List.mem_append] at hb
  rcases hb with hb | hb
  · exact hpq b (List.mem_takeWhile_imp hb)
  · exact h b hb

theorem isNumberByte_of_isDigit {b : UInt8} (h : isDigit b = true) : isNumberByte b = true := by
  simp [isNumberByte, h]

/-- A digit in front of a text, and the digits that it goes on with. -/
theorem numberBytes_digits {d : UInt8} (hd : isDigit d = true) {s : Str}
    (h : ∀ b ∈ s.dropWhile isDigit, isNumberByte b = true) : ∀ b ∈ d :: s, isNumberByte b = true := by
  rw [List.forall_mem_cons]
  exact ⟨isNumberByte_of_isDigit hd, forall_of_dropWhile (fun _ => isNumberByte_of_isDigit) h⟩

/-- A sign is a byte of a number. -/
theorem numberBytes_of_dropSign {s : Str}
    (h : ∀ b ∈ (if s.head? = some 0x2B ∨ s.head? = some 0x2D then s.tail else s), isNumberByte b = true) :
    ∀ b ∈ s, isNumberByte b = true := by
  split_ifs at h with hsign
  · cases s with
    | nil => exact h
    | cons c s =>
      rw [List.forall_mem_cons]
      refine ⟨?_, h⟩
      rcases hsign with hc | hc
      all_goals
        rw [List.head?_cons, Option.some.injEq] at hc
        subst hc
        rfl
  · exact h

/-- The exponent has number bytes only. -/
theorem numberBytes_of_afterExponent {s : Str} (h : afterExponent s = some []) :
    ∀ b ∈ s, isNumberByte b = true := by
  cases s with
  | nil => exact fun b hb => absurd hb List.not_mem_nil
  | cons b s =>
    rw [afterExponent] at h
    by_cases hb : b = 0x65 ∨ b = 0x45
    · rw [if_pos hb] at h
      rw [List.forall_mem_cons]
      refine ⟨by rcases hb with rfl | rfl <;> rfl, numberBytes_of_dropSign ?_⟩
      generalize (if s.head? = some 0x2B ∨ s.head? = some 0x2D then s.tail else s) = t at h
      cases t with
      | nil => cases h
      | cons d t =>
        simp only [Option.ite_none_right_eq_some, Option.some.injEq] at h
        refine numberBytes_digits h.1 ?_
        rw [h.2]
        exact fun b hb => absurd hb List.not_mem_nil
    · rw [if_neg hb] at h
      cases h

/-- So has the fraction, if what follows it has. -/
theorem numberBytes_of_afterFraction {s rest : Str} (h : afterFraction s = some rest)
    (hrest : ∀ b ∈ rest, isNumberByte b = true) : ∀ b ∈ s, isNumberByte b = true := by
  cases s with
  | nil => exact fun b hb => absurd hb List.not_mem_nil
  | cons b s =>
    unfold afterFraction at h
    dsimp only at h
    split_ifs at h with hb
    · cases s with
      | nil => cases h
      | cons d s =>
        simp only [Option.ite_none_right_eq_some, Option.some.injEq] at h
        obtain ⟨hd, rfl⟩ := h
        rw [List.forall_mem_cons]
        exact ⟨by rw [hb]; rfl, numberBytes_digits hd hrest⟩
    · cases h
      exact hrest

/-- So has the integer part, and it starts with a digit. -/
theorem numberBytes_of_afterInteger {s rest : Str} (h : afterInteger s = some rest)
    (hrest : ∀ b ∈ rest, isNumberByte b = true) :
    (∀ b ∈ s, isNumberByte b = true) ∧ ∃ d t, s = d :: t ∧ isDigit d = true := by
  cases s with
  | nil => cases h
  | cons b s =>
    rw [afterInteger] at h
    split_ifs at h with hzero hdigit
    · cases h
      rw [List.forall_mem_cons]
      exact ⟨⟨by rw [hzero]; rfl, hrest⟩, b, _, rfl, by rw [hzero]; rfl⟩
    · cases h
      exact ⟨numberBytes_digits hdigit hrest, b, s, rfl, hdigit⟩

/-- A number has number bytes only, and starts with a sign or a digit. -/
theorem numberBytes_of_isNumber {s : Str} (h : isNumber s = true) :
    (∀ b ∈ s, isNumberByte b = true) ∧ ∃ b t, s = b :: t ∧ (b = 0x2D ∨ isDigit b = true) := by
  unfold isNumber at h
  rw [beq_iff_eq, Option.bind_eq_some_iff] at h
  obtain ⟨r1, h, h3⟩ := h
  rw [Option.bind_eq_some_iff] at h
  obtain ⟨r2, h1, h2⟩ := h
  obtain ⟨hall, d, t, heq, hd⟩ :=
    numberBytes_of_afterInteger h1 (numberBytes_of_afterFraction h2 (numberBytes_of_afterExponent h3))
  split_ifs at hall heq with hsign
  · cases s with
    | nil => cases hsign
    | cons b s =>
      rw [List.head?_cons, Option.some.injEq] at hsign
      rw [List.forall_mem_cons]
      exact ⟨⟨by rw [hsign]; rfl, hall⟩, b, s, rfl, Or.inl hsign⟩
  · exact ⟨hall, d, t, heq, Or.inr hd⟩

/-- The text does not go on with a byte of a number. -/
def Ends (rest : Str) : Prop := ∀ b ∈ rest.head?, isNumberByte b = false

theorem ends_nil : Ends [] := fun b hb => by cases hb

theorem ends_cons {b : UInt8} (h : isNumberByte b = false) (rest : Str) : Ends (b :: rest) := by
  intro c hc
  cases hc
  exact h

/-- A number is read as far as it goes. -/
theorem readNumber_append {text rest : Str} (h : isNumber text = true) (hrest : Ends rest) :
    readNumber (text ++ rest) = some (text, rest) := by
  obtain ⟨hall, -⟩ := numberBytes_of_isNumber h
  have htake : rest.takeWhile isNumberByte = [] := by
    cases rest with
    | nil => rfl
    | cons b rest => rw [List.takeWhile_cons, if_neg (by rw [hrest b rfl]; decide)]
  have hdrop : rest.dropWhile isNumberByte = rest := by
    cases rest with
    | nil => rfl
    | cons b rest => rw [List.dropWhile_cons, if_neg (by rw [hrest b rfl]; decide)]
  unfold readNumber
  rw [List.takeWhile_append_of_pos hall, List.dropWhile_append_of_pos hall, htake, hdrop, List.append_nil, if_pos h]

/-! ## Whole numbers -/

/-- Only zero is written with a zero in front. -/
theorem decimal_head {n : Nat} (hn : 0 < n) : (decimal n).head? ≠ some 0x30 := by
  induction n using Nat.strong_induction_on with
  | _ n ih =>
    by_cases hsmall : n < 10
    · have hdigits : ∀ n < 10, 0 < n → ([n.digitChar].map fun c => UInt8.ofNat c.toNat).head? ≠ some 0x30 := by
        decide
      rw [decimal, Nat.toDigits_of_lt_base hsmall]
      exact hdigits n hsmall hn
    · have htens := ih (n / 10) (by omega) (by omega)
      rw [decimal, Nat.toDigits_of_base_le (by decide) (by omega), List.map_append]
      rw [decimal] at htens
      rw [List.head?_append_of_ne_nil]
      · exact htens
      · simp [Nat.toDigits_ne_nil]

theorem afterInteger_decimal (n : Nat) : afterInteger (decimal n) = some [] := by
  have hdigits : ∀ b ∈ decimal n, isDigit b = true := fun b hb => isDigit_of_mem_decimal hb
  by_cases hn : n = 0
  · rw [hn]
    rfl
  have hhead := decimal_head (Nat.pos_of_ne_zero hn)
  have hne := decimal_ne_nil n
  generalize decimal n = s at hdigits hhead hne
  cases s with
  | nil => exact absurd rfl hne
  | cons d s =>
    rw [List.forall_mem_cons] at hdigits
    rw [List.head?_cons] at hhead
    rw [afterInteger, if_neg (fun h => hhead (congrArg some h)), if_pos hdigits.1,
      List.dropWhile_eq_nil_iff.mpr hdigits.2]

/-- The text of an integer is a number. -/
theorem isNumber_toString (i : Int) : isNumber (Cxx.toString i) = true := by
  unfold isNumber Cxx.toString
  split_ifs with hneg hsign hsign
  · rw [List.tail_cons, afterInteger_decimal]
    rfl
  · exact absurd List.head?_cons hsign
  · have hdigit := isDigit_of_mem_decimal (List.mem_of_mem_head? hsign)
    exact absurd hdigit (by decide)
  · rw [afterInteger_decimal]
    rfl

/-! ## Writing

The writer puts no blanks, and leaves it to its parameter how strings are escaped.
-/

section Write

variable (quote : Str → Str)

mutual

/-- The text of a value. -/
def write : Value → Str
  | .null => str "null"
  | .boolean b => if b then str "true" else str "false"
  | .number text => text
  | .string s => 0x22 :: (quote s ++ [0x22])
  | .array items => 0x5B :: (writeItems items ++ [0x5D])
  | .object members => 0x7B :: (writeMembers members ++ [0x7D])

/-- The elements of an array, separated by commas. -/
def writeItems : List Value → Str
  | [] => []
  | [v] => write v
  | v :: v' :: vs => write v ++ 0x2C :: writeItems (v' :: vs)

/-- The members of an object, separated by commas. -/
def writeMembers : List (Str × Value) → Str
  | [] => []
  | [(key, v)] => 0x22 :: (quote key ++ 0x22 :: 0x3A :: write v)
  | (key, v) :: m :: ms => 0x22 :: (quote key ++ 0x22 :: 0x3A :: (write v ++ 0x2C :: writeMembers (m :: ms)))

end

end Write

mutual

/-- The strings in a value, and the names of members. -/
def Value.strings : Value → List Str
  | .null | .boolean _ | .number _ => []
  | .string s => [s]
  | .array items => itemsStrings items
  | .object members => membersStrings members

def itemsStrings : List Value → List Str
  | [] => []
  | v :: vs => v.strings ++ itemsStrings vs

def membersStrings : List (Str × Value) → List Str
  | [] => []
  | (key, v) :: ms => key :: (v.strings ++ membersStrings ms)

end

mutual

/-- The texts of the numbers in a value. -/
def Value.numbers : Value → List Str
  | .null | .boolean _ | .string _ => []
  | .number text => [text]
  | .array items => itemsNumbers items
  | .object members => membersNumbers members

def itemsNumbers : List Value → List Str
  | [] => []
  | v :: vs => v.numbers ++ itemsNumbers vs

def membersNumbers : List (Str × Value) → List Str
  | [] => []
  | (_, v) :: ms => v.numbers ++ membersNumbers ms

end

/-- The writer's escapes are read back, and its numbers are numbers. -/
structure Writable (quote : Str → Str) (strings numbers : List Str) : Prop where
  strings : ∀ s ∈ strings, ∀ rest, readString (quote s ++ 0x22 :: rest) = some (s, rest)
  numbers : ∀ text ∈ numbers, isNumber text = true

/-- Of a part of a value. -/
theorem Writable.mono {quote : Str → Str} {strings strings' numbers numbers' : List Str}
    (h : Writable quote strings numbers) (hs : strings' ⊆ strings) (hn : numbers' ⊆ numbers) :
    Writable quote strings' numbers' :=
  ⟨fun s hmem => h.strings s (hs hmem), fun text hmem => h.numbers text (hn hmem)⟩

/-! ## Reading what has been written -/

theorem skip_cons {b : UInt8} (h : isBlank b = false) (s : Str) : skip (b :: s) = b :: s := by
  unfold skip
  rw [List.dropWhile_cons, if_neg (by rw [h]; decide)]

theorem readWord_append (word : Str) (v : Value) (rest : Str) : readWord word v (word ++ rest) = some (v, rest) := by
  unfold readWord
  rw [if_pos (List.prefix_append word rest), List.drop_left]

/-- The first byte of a number starts no other value. -/
theorem number_head (b : UInt8) : b = 0x2D ∨ isDigit b = true →
    isBlank b = false ∧ b ∉ [0x22, 0x5B, 0x5D, 0x7B, 0x6E, 0x74, 0x66] := by
  revert b
  exact LetterCase.forall_byte (by decide +kernel)

theorem readValue_number {text rest : Str} (h : isNumber text = true) (hrest : Ends rest) (fuel : Nat) :
    readValue (fuel + 1) (text ++ rest) = some (.number text, rest) := by
  have hread := readNumber_append h hrest
  obtain ⟨-, b, t, rfl, hb⟩ := numberBytes_of_isNumber h
  obtain ⟨hblank, hother⟩ := number_head b hb
  simp only [List.mem_cons, List.not_mem_nil, or_false, not_or] at hother
  obtain ⟨hquote, harray, -, hobject, hnull, htrue, hfalse⟩ := hother
  rw [List.cons_append] at hread ⊢
  rw [readValue, skip_cons hblank]
  dsimp only
  rw [if_neg hquote, if_neg harray, if_neg hobject, if_neg hnull, if_neg htrue, if_neg hfalse, hread]
  rfl

theorem readValue_word {word : Str} {v : Value} (h : (word, v) ∈
    [(str "null", Value.null), (str "true", .boolean true), (str "false", .boolean false)]) (rest : Str) (fuel : Nat) :
    readValue (fuel + 1) (word ++ rest) = some (v, rest) := by
  simp only [List.mem_cons, List.not_mem_nil, or_false, Prod.mk.injEq] at h
  rcases h with ⟨rfl, rfl⟩ | ⟨rfl, rfl⟩ | ⟨rfl, rfl⟩
  · exact readWord_append (str "null") .null rest
  · exact readWord_append (str "true") (.boolean true) rest
  · exact readWord_append (str "false") (.boolean false) rest

variable {quote : Str → Str}

/-- A text starts with a byte that is neither a blank nor the end of an array. -/
theorem write_head {v : Value} (h : ∀ text ∈ v.numbers, isNumber text = true) :
    ∃ b s, write quote v = b :: s ∧ isBlank b = false ∧ b ≠ 0x5D := by
  cases v with
  | null => exact ⟨0x6E, _, rfl, by decide, by decide⟩
  | boolean b =>
    cases b
    · exact ⟨0x66, _, rfl, by decide, by decide⟩
    · exact ⟨0x74, _, rfl, by decide, by decide⟩
  | number text =>
    obtain ⟨-, b, t, heq, hb⟩ := numberBytes_of_isNumber (h text (List.mem_singleton_self text))
    obtain ⟨hblank, hother⟩ := number_head b hb
    refine ⟨b, t, heq, hblank, ?_⟩
    rintro rfl
    exact hother (by decide)
  | string s => exact ⟨0x22, _, rfl, by decide, by decide⟩
  | array items => exact ⟨0x5B, _, rfl, by decide, by decide⟩
  | object members => exact ⟨0x7B, _, rfl, by decide, by decide⟩

/-- So does that of the elements of an array. -/
theorem writeItems_head {vs : List Value} (hne : vs ≠ []) (h : ∀ text ∈ itemsNumbers vs, isNumber text = true) :
    ∃ b s, writeItems quote vs = b :: s ∧ isBlank b = false ∧ b ≠ 0x5D := by
  match vs, hne with
  | [v], _ => exact write_head fun text hmem => h text (List.mem_append_left _ hmem)
  | v :: v' :: vs, _ =>
    obtain ⟨b, s, heq, hb⟩ := @write_head quote v fun text hmem => h text (List.mem_append_left _ hmem)
    exact ⟨b, s ++ 0x2C :: writeItems quote (v' :: vs), by rw [writeItems, heq]; rfl, hb⟩

/-- That of the members of an object starts with a name. -/
theorem writeMembers_head {ms : List (Str × Value)} (hne : ms ≠ []) : ∃ s, writeMembers quote ms = 0x22 :: s := by
  match ms, hne with
  | [(key, v)], _ => exact ⟨_, rfl⟩
  | (key, v) :: m :: ms, _ => exact ⟨_, rfl⟩

mutual

/-- A value is read as far as its text goes. -/
theorem readValue_write (v : Value) (hv : Writable quote v.strings v.numbers) {fuel : Nat}
    (hfuel : 2 * (write quote v).length ≤ fuel) {rest : Str} (hrest : Ends rest) :
    readValue fuel (write quote v ++ rest) = some (v, rest) := by
  have hpos : 0 < (write quote v).length := by
    obtain ⟨b, s, heq, -⟩ := @write_head quote v hv.numbers
    rw [heq]
    exact Nat.succ_pos _
  obtain ⟨fuel, rfl⟩ : ∃ n, fuel = n + 1 := ⟨fuel - 1, by omega⟩
  cases v with
  | null => exact readValue_word (by simp [write]) rest fuel
  | boolean b => exact readValue_word (by cases b <;> simp [write]) rest fuel
  | number text => exact readValue_number (hv.numbers text (List.mem_singleton_self text)) hrest fuel
  | string s =>
    have hread := hv.strings s (List.mem_singleton_self s) rest
    rw [write, List.cons_append, List.append_assoc, List.singleton_append, readValue, skip_cons (by decide)]
    dsimp only
    rw [if_pos rfl, hread]
    rfl
  | array items =>
    rw [write, List.length_cons, List.length_append, List.length_singleton] at hfuel
    rw [write, List.cons_append, List.append_assoc, List.singleton_append, readValue, skip_cons (by decide)]
    dsimp only
    rw [if_neg (by decide), if_pos rfl]
    by_cases hne : items = []
    · rw [hne, writeItems, List.nil_append, skip_cons (by decide), if_pos List.head?_cons, List.tail_cons]
    · obtain ⟨b, s, heq, hblank, hend⟩ := @writeItems_head quote items hne hv.numbers
      have hhead : (skip (writeItems quote items ++ 0x5D :: rest)).head? ≠ some 0x5D := by
        rw [heq, List.cons_append, skip_cons hblank, List.head?_cons]
        exact fun h => hend (Option.some.inj h)
      rw [if_neg hhead, readItems_write items hne hv (by omega) rest]
      rfl
  | object members =>
    rw [write, List.length_cons, List.length_append, List.length_singleton] at hfuel
    rw [write, List.cons_append, List.append_assoc, List.singleton_append, readValue, skip_cons (by decide)]
    dsimp only
    rw [if_neg (by decide), if_neg (by decide), if_pos rfl]
    by_cases hne : members = []
    · rw [hne, writeMembers, List.nil_append, skip_cons (by decide), if_pos List.head?_cons, List.tail_cons]
    · obtain ⟨s, heq⟩ := @writeMembers_head quote members hne
      have hhead : (skip (writeMembers quote members ++ 0x7D :: rest)).head? ≠ some 0x7D := by
        rw [heq, List.cons_append, skip_cons (by decide), List.head?_cons]
        decide
      rw [if_neg hhead, readMembers_write members hne hv (by omega) rest]
      rfl

/-- So are the elements of an array. -/
theorem readItems_write : ∀ (vs : List Value), vs ≠ [] → Writable quote (itemsStrings vs) (itemsNumbers vs) →
    ∀ {fuel : Nat}, 2 * (writeItems quote vs).length + 1 ≤ fuel → ∀ rest : Str,
      readItems fuel (writeItems quote vs ++ 0x5D :: rest) = some (vs, rest)
  | [], hne, _, _, _, _ => absurd rfl hne
  | [v], _, hvs, fuel, hfuel, rest => by
    obtain ⟨fuel, rfl⟩ : ∃ n, fuel = n + 1 := ⟨fuel - 1, by omega⟩
    have hv := hvs.mono (List.subset_append_left _ _) (List.subset_append_left _ _)
    rw [writeItems] at hfuel ⊢
    rw [readItems, readValue_write v hv (by omega) (ends_cons (by decide) rest)]
    dsimp only
    rw [skip_cons (by decide)]
    rfl
  | v :: v' :: vs, _, hvs, fuel, hfuel, rest => by
    obtain ⟨fuel, rfl⟩ : ∃ n, fuel = n + 1 := ⟨fuel - 1, by omega⟩
    have hv := hvs.mono (List.subset_append_left _ _) (List.subset_append_left _ _)
    have hvs' := hvs.mono (List.subset_append_right _ _) (List.subset_append_right _ _)
    rw [writeItems, List.length_append, List.length_cons] at hfuel
    rw [writeItems, List.append_assoc, List.cons_append, readItems,
      readValue_write v hv (by omega) (ends_cons (by decide) _)]
    dsimp only
    rw [skip_cons (by decide)]
    dsimp only
    rw [if_pos rfl, readItems_write (v' :: vs) (List.cons_ne_nil _ _) hvs' (by omega) rest]
    rfl

/-- So are the members of an object. -/
theorem readMembers_write : ∀ (ms : List (Str × Value)), ms ≠ [] →
    Writable quote (membersStrings ms) (membersNumbers ms) →
    ∀ {fuel : Nat}, 2 * (writeMembers quote ms).length + 1 ≤ fuel → ∀ rest : Str,
      readMembers fuel (writeMembers quote ms ++ 0x7D :: rest) = some (ms, rest)
  | [], hne, _, _, _, _ => absurd rfl hne
  | [(key, v)], _, hms, fuel, hfuel, rest => by
    obtain ⟨fuel, rfl⟩ : ∃ n, fuel = n + 1 := ⟨fuel - 1, by omega⟩
    have hkey := hms.strings key List.mem_cons_self
    have hv := hms.mono (List.subset_cons_of_subset key (List.subset_append_left v.strings _))
      (List.subset_append_left v.numbers _)
    simp only [writeMembers, List.length_append, List.length_cons] at hfuel
    simp only [writeMembers, List.cons_append, List.append_assoc]
    rw [readMembers, skip_cons (by decide)]
    dsimp only
    rw [if_pos rfl, hkey]
    dsimp only
    rw [skip_cons (by decide)]
    dsimp only
    rw [if_pos rfl, readValue_write v hv (by omega) (ends_cons (by decide) rest)]
    dsimp only
    rw [skip_cons (by decide)]
    rfl
  | (key, v) :: m :: ms, _, hms, fuel, hfuel, rest => by
    obtain ⟨fuel, rfl⟩ : ∃ n, fuel = n + 1 := ⟨fuel - 1, by omega⟩
    have hkey := hms.strings key List.mem_cons_self
    have hv := hms.mono (List.subset_cons_of_subset key (List.subset_append_left v.strings _))
      (List.subset_append_left v.numbers _)
    have hms' := hms.mono (List.subset_cons_of_subset key (List.subset_append_right v.strings _))
      (List.subset_append_right v.numbers _)
    simp only [writeMembers, List.length_append, List.length_cons] at hfuel
    simp only [writeMembers, List.cons_append, List.append_assoc]
    rw [readMembers, skip_cons (by decide)]
    dsimp only
    rw [if_pos rfl, hkey]
    dsimp only
    rw [skip_cons (by decide)]
    dsimp only
    rw [if_pos rfl, readValue_write v hv (by omega) (ends_cons (by decide) _)]
    dsimp only
    rw [skip_cons (by decide)]
    dsimp only
    rw [if_pos rfl, readMembers_write (m :: ms) (List.cons_ne_nil _ _) hms' (by omega) rest]
    rfl

end

/-- **Round trip.** A written value is read back. -/
theorem read_write (v : Value) (hv : Writable quote v.strings v.numbers) : read (write quote v) = some v := by
  have h := readValue_write v hv (Nat.le_refl _) ends_nil
  rw [List.append_nil] at h
  unfold read
  rw [h]
  rfl

/-! ## The text is UTF-8 -/

/-- A number is ASCII text. -/
theorem isUtf8_of_isNumber {text : Str} (h : isNumber text = true) : Utf8.IsUtf8 text := by
  have hascii : ∀ b : UInt8, isNumberByte b = true → b.toNat ≤ 0x7F := by
    exact LetterCase.forall_byte (by decide +kernel)
  exact Utf8.isUtf8_ascii fun b hb => hascii b ((numberBytes_of_isNumber h).1 b hb)

mutual

/-- Texts of strings that are UTF-8 make the text of a value so. -/
theorem isUtf8_write (v : Value) (hs : ∀ s ∈ v.strings, Utf8.IsUtf8 (quote s))
    (hn : ∀ text ∈ v.numbers, isNumber text = true) : Utf8.IsUtf8 (write quote v) := by
  have hwords : Utf8.IsUtf8 (str "null") ∧ Utf8.IsUtf8 (str "true") ∧ Utf8.IsUtf8 (str "false") :=
    ⟨Utf8.isUtf8_ascii (by decide), Utf8.isUtf8_ascii (by decide), Utf8.isUtf8_ascii (by decide)⟩
  cases v with
  | null => exact hwords.1
  | boolean b =>
    cases b
    · exact hwords.2.2
    · exact hwords.2.1
  | number text => exact isUtf8_of_isNumber (hn text (List.mem_singleton_self text))
  | string s =>
    rw [write]
    exact Utf8.isUtf8_cons (by decide)
      (Utf8.isUtf8_append (hs s (List.mem_singleton_self s)) (Utf8.isUtf8_ascii (by decide)))
  | array items =>
    rw [write]
    exact Utf8.isUtf8_cons (by decide)
      (Utf8.isUtf8_append (isUtf8_writeItems items hs hn) (Utf8.isUtf8_ascii (by decide)))
  | object members =>
    rw [write]
    exact Utf8.isUtf8_cons (by decide)
      (Utf8.isUtf8_append (isUtf8_writeMembers members hs hn) (Utf8.isUtf8_ascii (by decide)))

theorem isUtf8_writeItems : ∀ vs : List Value, (∀ s ∈ itemsStrings vs, Utf8.IsUtf8 (quote s)) →
    (∀ text ∈ itemsNumbers vs, isNumber text = true) → Utf8.IsUtf8 (writeItems quote vs)
  | [], _, _ => Utf8.isUtf8_nil
  | [v], hs, hn => by
    simp only [itemsStrings, itemsNumbers, List.append_nil] at hs hn
    exact isUtf8_write v hs hn
  | v :: v' :: vs, hs, hn => by
    rw [itemsStrings, List.forall_mem_append] at hs
    rw [itemsNumbers, List.forall_mem_append] at hn
    rw [writeItems]
    exact Utf8.isUtf8_append (isUtf8_write v hs.1 hn.1)
      (Utf8.isUtf8_cons (by decide) (isUtf8_writeItems (v' :: vs) hs.2 hn.2))

theorem isUtf8_writeMembers : ∀ ms : List (Str × Value), (∀ s ∈ membersStrings ms, Utf8.IsUtf8 (quote s)) →
    (∀ text ∈ membersNumbers ms, isNumber text = true) → Utf8.IsUtf8 (writeMembers quote ms)
  | [], _, _ => Utf8.isUtf8_nil
  | [(key, v)], hs, hn => by
    simp only [membersStrings, membersNumbers, List.append_nil, List.forall_mem_cons] at hs hn
    rw [writeMembers]
    exact Utf8.isUtf8_cons (by decide) (Utf8.isUtf8_append hs.1
      (Utf8.isUtf8_cons (by decide) (Utf8.isUtf8_cons (by decide) (isUtf8_write v hs.2 hn))))
  | (key, v) :: m :: ms, hs, hn => by
    rw [membersStrings, List.forall_mem_cons, List.forall_mem_append] at hs
    rw [membersNumbers, List.forall_mem_append] at hn
    obtain ⟨hkey, hv, hms⟩ := hs
    rw [writeMembers]
    have hrest : Utf8.IsUtf8 (write quote v ++ 0x2C :: writeMembers quote (m :: ms)) :=
      Utf8.isUtf8_append (isUtf8_write v hv hn.1)
        (Utf8.isUtf8_cons (by decide) (isUtf8_writeMembers (m :: ms) hms hn.2))
    exact Utf8.isUtf8_cons (by decide) (Utf8.isUtf8_append hkey
      (Utf8.isUtf8_cons (by decide) (Utf8.isUtf8_cons (by decide) hrest)))

end

end JsonReader
