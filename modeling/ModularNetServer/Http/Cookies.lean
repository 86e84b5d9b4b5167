import ModularNetServer.Http.HeaderFields

/-!
# Cookies as they are sent

The `Cookie` header of a list of names and values, written as a browser writes it.
-/

namespace ModularNetServer

open Cxx

/-- A cookie whose name and value survive being written into the header. -/
structure IsCookie (kv : Str × Str) : Prop where
  name : ∀ b ∈ kv.1, b ≠ 61 ∧ b ≠ 59 ∧ b ≠ 9 ∧ b ≠ 13 ∧ b ≠ 10
  noSpace : kv.1.head? ≠ some 32
  value : ∀ b ∈ kv.2, b ≠ 59 ∧ b ≠ 13 ∧ b ≠ 10

/-- `name=value`. -/
def cookieItem (kv : Str × Str) : Str := kv.1 ++ 61 :: kv.2

/-- The items, joined by `; `. -/
def cookieHeader (cookies : List (Str × Str)) : Str := (str "; ").intercalate (cookies.map cookieItem)

/-- The header line of the cookies. -/
def cookieLine (cookies : List (Str × Str)) : Str := str "Cookie" ++ 58 :: 32 :: cookieHeader cookies

end ModularNetServer
