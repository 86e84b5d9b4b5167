import ModularNetServer.Library.CxxText

/-!
# JSON values and their text

The part of `nlohmann::json` that the handlers use: values, member access on a `const json` and
`dump()` in its default mode (compact, no ASCII escaping, strict UTF-8). A number is kept as the
text it is dumped to; parsing is a parameter of the server (`Environment.parseJson`).
-/

namespace ModularNetServer

open Cxx

/-- What can end a task: an exception, or a failed assertion (the default build is `Debug`). -/
inductive Escape
  | std (e : Exception)
  | jsonTypeError (id : Nat)
  | jsonAssert
  deriving DecidableEq

/-- A JSON value. Object members are in the order of the underlying `std::map`. -/
inductive Json
  | null
  | boolean (b : Bool)
  | number (text : Str)
  | string (s : Str)
  | array (items : List Json)
  | object (members : List (Str × Json))

namespace Json

/-! ## UTF-8 decoding (`serializer::decode`) -/

/-- The character class of a byte: the first 256 entries of `utf8d`. -/
def byteType (b : UInt8) : Nat :=
  let n := b.toNat
  if n ≤ 0x7F then 0
  else if n ≤ 0x8F then 1
  else if n ≤ 0x9F then 9
  else if n ≤ 0xBF then 7
  else if n ≤ 0xC1 then 8
  else if n ≤ 0xDF then 2
  else if n = 0xE0 then 10
  else if n = 0xED then 4
  else if n ≤ 0xEF then 3
  else if n = 0xF0 then 11
  else if n ≤ 0xF3 then 6
  else if n = 0xF4 then 5
  else 8

/-- The transitions of the decoder: the entries of `utf8d` from 256 on, sixteen a state. -/
def utf8Transitions : List (List Nat) :=
  [[0, 1, 2, 3, 5, 8, 7, 1, 1, 1, 4, 6, 1, 1, 1, 1],
   [1, 1, 1, 1, 1, 1, 1, 1, 1, 1, 1, 1, 1, 1, 1, 1],
   [1, 0, 1, 1, 1, 1, 1, 0, 1, 0, 1, 1, 1, 1, 1, 1],
   [1, 2, 1, 1, 1, 1, 1, 2, 1, 2, 1, 1, 1, 1, 1, 1],
   [1, 1, 1, 1, 1, 1, 1, 2, 1, 1, 1, 1, 1, 1, 1, 1],
   [1, 2, 1, 1, 1, 1, 1, 1, 1, 2, 1, 1, 1, 1, 1, 1],
   [1, 1, 1, 1, 1, 1, 1, 3, 1, 3, 1, 1, 1, 1, 1, 1],
   [1, 3, 1, 1, 1, 1, 1, 3, 1, 3, 1, 1, 1, 1, 1, 1],
   [1, 3, 1, 1, 1, 1, 1, 1, 1, 1, 1, 1, 1, 1, 1, 1]]

/-- `UTF8_ACCEPT` and `UTF8_REJECT`. -/
def utf8Accept : Nat := 0
def utf8Reject : Nat := 1

/-- One step of `decode`: the new state and code point. -/
def decode (state codep : Nat) (byte : UInt8) : Nat × Nat :=
  let type := byteType byte
  let codep := if state ≠ utf8Accept then byte.toNat % 64 + codep * 64 else (255 >>> type) &&& byte.toNat
  (((utf8Transitions.getD state []).getD type utf8Reject), codep)

/-! ## `dump` -/

/-- `%04x` of a code point below 0x20. -/
def hex4 (n : Nat) : Str :=
  let digit (d : Nat) : UInt8 := UInt8.ofNat (if d < 10 then 48 + d else 87 + d)
  [48, 48, digit (n / 16), digit (n % 16)]

/-- The text written for an accepted code point whose last byte is `byte`. -/
def escapeCodepoint (codep : Nat) (byte : UInt8) : Str :=
  match codep with
  | 0x08 => str "\\b"
  | 0x09 => str "\\t"
  | 0x0A => str "\\n"
  | 0x0C => str "\\f"
  | 0x0D => str "\\r"
  | 0x22 => str "\\\""
  | 0x5C => str "\\\\"
  | _ => if codep ≤ 0x1F then str "\\u" ++ hex4 codep else [byte]

/-- `dump_escaped` with the strict error handler, from a decoder state. -/
def dumpEscapedFrom (state codep : Nat) : Str → Except Escape Str
  | [] => if state = utf8Accept then .ok [] else .error (.jsonTypeError 316)
  | byte :: rest =>
    let (state, codep) := decode state codep byte
    if state = utf8Reject then .error (.jsonTypeError 316)
    else
      let out := if state = utf8Accept then escapeCodepoint codep byte else [byte]
      match dumpEscapedFrom state codep rest with
      | .error e => .error e
      | .ok text => .ok (out ++ text)

/-- `dump_escaped`. -/
def dumpEscaped (s : Str) : Except Escape Str := dumpEscapedFrom utf8Accept 0 s

/-- A JSON string literal. -/
def dumpString (s : Str) : Except Escape Str :=
  match dumpEscaped s with
  | .error e => .error e
  | .ok text => .ok (str "\"" ++ text ++ str "\"")

/-- `Bool` as JSON text. -/
def dumpBool : Bool → Str
  | true => str "true"
  | false => str "false"

mutual

/-- `dump()`. -/
def dump : Json → Except Escape Str
  | .null => .ok (str "null")
  | .boolean b => .ok (dumpBool b)
  | .number text => .ok text
  | .string s => dumpString s
  | .array items =>
    match dumpItems items with
    | .error e => .error e
    | .ok text => .ok (str "[" ++ text ++ str "]")
  | .object members =>
    match dumpMembers members with
    | .error e => .error e
    | .ok text => .ok (str "\x7b" ++ text ++ str "\x7d")

/-- The elements of an array, separated by commas. -/
def dumpItems : List Json → Except Escape Str
  | [] => .ok []
  | [item] => dump item
  | item :: item' :: items =>
    match dump item with
    | .error e => .error e
    | .ok text =>
      match dumpItems (item' :: items) with
      | .error e => .error e
      | .ok rest => .ok (text ++ str "," ++ rest)

/-- The members of an object, separated by commas. -/
def dumpMembers : List (Str × Json) → Except Escape Str
  | [] => .ok []
  | [(key, value)] =>
    match dumpString key with
    | .error e => .error e
    | .ok name =>
      match dump value with
      | .error e => .error e
      | .ok text => .ok (name ++ str ":" ++ text)
  | (key, value) :: member :: members =>
    match dumpString key with
    | .error e => .error e
    | .ok name =>
      match dump value with
      | .error e => .error e
      | .ok text =>
        match dumpMembers (member :: members) with
        | .error e => .error e
        | .ok rest => .ok (name ++ str ":" ++ text ++ str "," ++ rest)

end

/-! ## Access -/

/-- The member of an object with a given key. -/
def lookup (key : Str) : List (Str × Json) → Option Json
  | [] => none
  | (k, v) :: rest => if k = key then some v else lookup key rest

/-- `operator[](key)` of a `const json`: a type error unless the value is an object, an assertion
    if the object has no such member. -/
def member (j : Json) (key : Str) : Except Escape Json :=
  match j with
  | .object members =>
    match lookup key members with
    | some v => .ok v
    | none => .error .jsonAssert
  | _ => .error (.jsonTypeError 305)

/-- The conversion to `std::string`. -/
def getString : Json → Except Escape Str
  | .string s => .ok s
  | _ => .error (.jsonTypeError 302)

/-- `empty()`. -/
def isEmpty : Json → Bool
  | .null => true
  | .array items => items.isEmpty
  | .object members => members.isEmpty
  | _ => false

end Json

end ModularNetServer
