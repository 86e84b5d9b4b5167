import ModularNetServer.Library.LastWrite
import ModularNetServer.Http.HttpRequest

/-!
# Range headers

The grammar of a `Range` value, apart from the code, and what `parseRange` makes of any value: it cuts the
text at its first hyphen and hands both parts to `std::stoi`, which is more lenient.
-/

namespace ModularNetServer

open Cxx LastWrite

/-- The header lines of a request, each given to `parseHeaders`. -/
def HttpRequest.parseHeaderLines (base : HttpBase) : List Str → Except Escape HttpBase
  | [] => .ok base
  | line :: lines =>
    match parseHeaders line base with
    | .error e => .error e
    | .ok (_, base) => parseHeaderLines base lines

/-- Before any `Range` header. -/
def ByteRange.unset : ByteRange := ⟨-1, -1, false⟩

/-- The value of a header line, if it is a `Range` header. -/
def rangeValue (line : Str) : Option Str :=
  if line = str "\r\n" ∨ line = [] then none
  else
    match HttpRequest.splitHeader line with
    | none => none
    | some (key, value) => if key = str "Range" then some value else none

/-- The values of the `Range` headers of a request. -/
def rangeValues (lines : List Str) : List Str := lines.filterMap rangeValue

/-! ## The grammar -/

/-- The number that a group of digits stands for, and −1 for a group that is absent. -/
def groupValue (digits : Str) : Int := if digits = [] then -1 else digitsValue digits

/-- `'bytes=' [digits] '-' [digits]` with at least one group, both of which fit an `int`. -/
def IsRange (value : Str) (start stop : Int) : Prop :=
  ∃ first last, value = str "bytes=" ++ (first ++ 45 :: last) ∧
    (∀ d ∈ first, isDigit d = true) ∧ (∀ d ∈ last, isDigit d = true) ∧ (first ≠ [] ∨ last ≠ []) ∧
    digitsValue first < 2 ^ 31 ∧ digitsValue last < 2 ^ 31 ∧
    start = groupValue first ∧ stop = groupValue last

/-- The range is the one of the last value: valid if and only if that value is well formed, and then with
    its numbers. -/
def ByteRange.AgreesWithLast (range : ByteRange) (values : List Str) : Prop :=
  (range.isValid = true ↔ ∃ value ∈ values.getLast?, ∃ start stop, IsRange value start stop) ∧
    ∀ value ∈ values.getLast?, ∀ start stop, IsRange value start stop →
      range.start = start ∧ range.stop = stop

/-! ## What the code makes of a value -/

/-- A value is cut at the first hyphen after the prefix. -/
def Parts (value first last : Str) : Prop := value = str "bytes=" ++ (first ++ 45 :: last) ∧ 45 ∉ first

/-- A part is left out, or `std::stoi` reads it. -/
def Reads (part : Str) : Prop := part = [] ∨ ∃ n, stoi part = .ok n

/-- A value sets the start. -/
def SetsStart (value : Str) (start : Int) : Prop :=
  ∃ first last, Parts value first last ∧ first ≠ [] ∧ stoi first = .ok start

/-- A value sets the end. -/
def SetsStop (value : Str) (stop : Int) : Prop :=
  ∃ first last, Parts value first last ∧ Reads first ∧ last ≠ [] ∧ stoi last = .ok stop

/-- A value decides whether the range is valid. -/
def SetsValid (value : Str) (valid : Bool) : Prop :=
  str "bytes=" <+: value ∧
    (valid = true ↔ ∃ first last, Parts value first last ∧ Reads first ∧ Reads last)

/-- Values of which the last is read as the grammar has it. -/
structure ReadByGrammar (earlier : List Str) (last : Str) : Prop where
  start : ∀ stop, IsRange last (-1) stop → ∀ n, ¬ LastSets SetsStart earlier n
  stop : ∀ start, IsRange last start (-1) → ∀ n, LastSets SetsStop earlier n → n = -1
  malformed : (∀ start stop, ¬ IsRange last start stop) → ¬ LastSets SetsValid (earlier ++ [last]) true

end ModularNetServer
