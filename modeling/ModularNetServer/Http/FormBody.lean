import ModularNetServer.Http.HttpRequest

/-!
# Form bodies as they are sent

The `application/x-www-form-urlencoded` serialisation of names and values: letters, digits and `*-._` stand
for themselves, a blank becomes `+` and every other byte its two hexadecimal digits after `%`.
-/

namespace ModularNetServer

open Cxx

/-- The byte stands for itself in an encoded form. -/
def formSafe (b : UInt8) : Bool :=
  isDigit b || (65 ≤ b && b ≤ 90) || (97 ≤ b && b ≤ 122) || b == 42 || b == 45 || b == 46 || b == 95

/-- A hexadecimal digit, in upper case. -/
def hexDigit (n : Nat) : UInt8 := UInt8.ofNat (if n < 10 then 48 + n else 55 + n)

/-- One byte, encoded. -/
def formEncodeByte (b : UInt8) : Str :=
  if formSafe b then [b]
  else if b = 32 then [43]
  else [37, hexDigit (b.toNat / 16), hexDigit (b.toNat % 16)]

/-- A name or a value, encoded. -/
def formEncode (s : Str) : Str := s.flatMap formEncodeByte

/-- `name=value`, encoded. -/
def formPair (kv : Str × Str) : Str := formEncode kv.1 ++ 61 :: formEncode kv.2

/-- The body that sends the form. -/
def formBody (form : List (Str × Str)) : Str := [38].intercalate (form.map formPair)

/-- The text stands for itself in an encoded form. -/
def FormPlain (s : Str) : Prop := ∀ b ∈ s, formSafe b = true

instance (s : Str) : Decidable (FormPlain s) := inferInstanceAs (Decidable (∀ b ∈ s, formSafe b = true))

end ModularNetServer
