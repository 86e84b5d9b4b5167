import Mathlib.Data.UInt
import Mathlib.Logic.Function.Basic

/-!
# Base64

Three bytes are written as four characters of an alphabet of 64; one or two bytes at the end as two or three
characters and padding.
-/

namespace Base64

/-- `=`. -/
def pad : UInt8 := 61

/-- The alphabet: `A` to `Z`, `a` to `z`, `0` to `9`, `+` and `/`. -/
def digit (n : Nat) : UInt8 :=
  UInt8.ofNat (if n < 26 then n + 65 else if n < 52 then n + 71 else if n < 62 then n - 4
    else if n = 62 then 43 else 47)

/-- The place of a character in the alphabet. -/
def value (c : UInt8) : Nat :=
  if 97 ≤ c.toNat then c.toNat - 71 else if 65 ≤ c.toNat then c.toNat - 65
  else if 48 ≤ c.toNat then c.toNat + 4 else if c.toNat = 43 then 62 else 63

def encode : List UInt8 → List UInt8
  | [] => []
  | [a] => [digit (a.toNat / 4), digit (a.toNat % 4 * 16), pad, pad]
  | [a, b] =>
    [digit (a.toNat / 4), digit (a.toNat % 4 * 16 + b.toNat / 16), digit (b.toNat % 16 * 4), pad]
  | a :: b :: c :: rest =>
    digit (a.toNat / 4) :: digit (a.toNat % 4 * 16 + b.toNat / 16) ::
      digit (b.toNat % 16 * 4 + c.toNat / 64) :: digit (c.toNat % 64) :: encode rest

/-- The first of the bytes that four characters stand for. -/
def first (w x : UInt8) : UInt8 := UInt8.ofNat (value w * 4 + value x / 16)

def second (x y : UInt8) : UInt8 := UInt8.ofNat (value x % 16 * 16 + value y / 4)

def third (y z : UInt8) : UInt8 := UInt8.ofNat (value y % 4 * 64 + value z)

def decode : List UInt8 → List UInt8
  | w :: x :: y :: z :: rest =>
    if y = pad then [first w x]
    else if z = pad then [first w x, second x y]
    else first w x :: second x y :: third y z :: decode rest
  | _ => []

/-! ## The alphabet -/

theorem value_digit {n : Nat} (h : n < 64) : value (digit n) = n :=
  (by decide : ∀ n < 64, value (digit n) = n) n h

theorem digit_ne_pad {n : Nat} (h : n < 64) : digit n ≠ pad :=
  (by decide : ∀ n < 64, digit n ≠ pad) n h

/-- What is written consists of the alphabet and padding. -/
theorem mem_encode {l : List UInt8} {c : UInt8} (h : c ∈ encode l) : c = pad ∨ ∃ n < 64, c = digit n := by
  have hpad : c = pad → c = pad ∨ ∃ n < 64, c = digit n := .inl
  have hdigit : ∀ {n : Nat}, n < 64 → c = digit n → c = pad ∨ ∃ n < 64, c = digit n :=
    fun hn hc => .inr ⟨_, hn, hc⟩
  induction l using encode.induct with
  | case1 => cases h
  | case2 a =>
    have ha := a.toNat_lt
    simp only [encode, List.mem_cons, List.not_mem_nil, or_false] at h
    rcases h with h | h | h | h
    · exact hdigit (by omega) h
    · exact hdigit (by omega) h
    · exact hpad h
    · exact hpad h
  | case3 a b =>
    have ha := a.toNat_lt
    have hb := b.toNat_lt
    simp only [encode, List.mem_cons, List.not_mem_nil, or_false] at h
    rcases h with h | h | h | h
    · exact hdigit (by omega) h
    · exact hdigit (by omega) h
    · exact hdigit (by omega) h
    · exact hpad h
  | case4 a b c' rest ih =>
    have ha := a.toNat_lt
    have hb := b.toNat_lt
    have hc := c'.toNat_lt
    simp only [encode, List.mem_cons] at h
    rcases h with h | h | h | h | h
    · exact hdigit (by omega) h
    · exact hdigit (by omega) h
    · exact hdigit (by omega) h
    · exact hdigit (by omega) h
    · exact ih h

/-! ## Reading back -/

/-- The first byte is in the first character and the upper bits of the second. -/
theorem first_digit (a : UInt8) {k : Nat} (hk : k < 16) :
    first (digit (a.toNat / 4)) (digit (a.toNat % 4 * 16 + k)) = a := by
  have ha := a.toNat_lt
  unfold first
  rw [value_digit (by omega), value_digit (by omega)]
  have hbyte : a.toNat / 4 * 4 + (a.toNat % 4 * 16 + k) / 16 = a.toNat := by omega
  rw [hbyte, UInt8.ofNat_toNat]

theorem second_digit (b : UInt8) {j k : Nat} (hj : j < 4) (hk : k < 4) :
    second (digit (j * 16 + b.toNat / 16)) (digit (b.toNat % 16 * 4 + k)) = b := by
  have hb := b.toNat_lt
  unfold second
  rw [value_digit (by omega), value_digit (by omega)]
  have hbyte : (j * 16 + b.toNat / 16) % 16 * 16 + (b.toNat % 16 * 4 + k) / 4 = b.toNat := by omega
  rw [hbyte, UInt8.ofNat_toNat]

theorem third_digit (c : UInt8) {j : Nat} (hj : j < 16) :
    third (digit (j * 4 + c.toNat / 64)) (digit (c.toNat % 64)) = c := by
  have hc := c.toNat_lt
  unfold third
  rw [value_digit (by omega), value_digit (by omega)]
  have hbyte : (j * 4 + c.toNat / 64) % 4 * 64 + c.toNat % 64 = c.toNat := by omega
  rw [hbyte, UInt8.ofNat_toNat]

theorem decode_encode (l : List UInt8) : decode (encode l) = l := by
  induction l using encode.induct with
  | case1 => rfl
  | case2 a =>
    have hfirst := first_digit a (k := 0) (by omega)
    rw [Nat.add_zero] at hfirst
    rw [encode, decode, if_pos rfl, hfirst]
  | case3 a b =>
    have ha := a.toNat_lt
    have hb := b.toNat_lt
    have hfirst := first_digit a (k := b.toNat / 16) (by omega)
    have hsecond := second_digit b (j := a.toNat % 4) (k := 0) (by omega) (by omega)
    rw [Nat.add_zero] at hsecond
    rw [encode, decode, if_neg (digit_ne_pad (by omega)), if_pos rfl, hfirst, hsecond]
  | case4 a b c rest ih =>
    have ha := a.toNat_lt
    have hb := b.toNat_lt
    have hc := c.toNat_lt
    have hfirst := first_digit a (k := b.toNat / 16) (by omega)
    have hsecond := second_digit b (j := a.toNat % 4) (k := c.toNat / 64) (by omega) (by omega)
    have hthird := third_digit c (j := b.toNat % 16) (by omega)
    rw [encode, decode, if_neg (digit_ne_pad (by omega)), if_neg (digit_ne_pad (by omega)), hfirst, hsecond,
      hthird, ih]

theorem encode_injective : Function.Injective encode := Function.LeftInverse.injective decode_encode

end Base64
