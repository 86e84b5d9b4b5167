import Mathlib.Data.UInt

/-!
# Letter case

ASCII texts that differ in nothing but the case of their letters.
-/

namespace LetterCase

/-- An ASCII letter in lower case, and any other byte as it is. -/
def lowerByte (b : UInt8) : UInt8 := if 65 ≤ b && b ≤ 90 then b + 32 else b

/-- An ASCII letter in upper case, and any other byte as it is. -/
def upperByte (b : UInt8) : UInt8 := if 97 ≤ b && b ≤ 122 then b - 32 else b

/-- A text in upper case. -/
def upper (s : List UInt8) : List UInt8 := s.map upperByte

/-- The texts differ in the case of their letters at most. -/
def Same (s t : List UInt8) : Prop := s.map lowerByte = t.map lowerByte

instance (s t : List UInt8) : Decidable (Same s t) := inferInstanceAs (Decidable (_ = _))

/-- A property of bytes is checked for each of them. -/
theorem forall_byte {p : UInt8 → Prop} (h : ∀ n < 256, p (UInt8.ofNat n)) (b : UInt8) : p b := by
  have hb := h b.toNat b.toNat_lt
  rwa [UInt8.ofNat_toNat] at hb

theorem lowerByte_upperByte (b : UInt8) : lowerByte (upperByte b) = lowerByte b := by
  revert b
  exact forall_byte (by decide +kernel)

/-- No byte in upper case is a letter in lower case. -/
theorem upperByte_ne (b : UInt8) : ¬ (97 ≤ upperByte b ∧ upperByte b ≤ 122) := by
  revert b
  exact forall_byte (by decide +kernel)

/-- A byte that is no letter has one case only. -/
theorem eq_of_lowerByte_eq {b c : UInt8} (hc : c < 65) (h : lowerByte b = c) : b = c := by
  have hall : ∀ b : UInt8, lowerByte b < 65 → lowerByte b = b := forall_byte (by decide +kernel)
  rw [← h, hall b (h ▸ hc)]

theorem Same.refl (s : List UInt8) : Same s s := rfl

theorem Same.symm {s t : List UInt8} (h : Same s t) : Same t s := Eq.symm h

theorem Same.trans {s t u : List UInt8} (h : Same s t) (h' : Same t u) : Same s u := Eq.trans h h'

theorem same_upper (s : List UInt8) : Same (upper s) s := by
  unfold Same upper
  rw [List.map_map]
  exact List.map_congr_left fun b _ => lowerByte_upperByte b

/-- A text with a letter in lower case is not in upper case. -/
theorem upper_ne {s t : List UInt8} (h : ∃ b ∈ t, 97 ≤ b ∧ b ≤ 122) : upper s ≠ t := by
  rintro rfl
  obtain ⟨b, hb, hlow⟩ := h
  obtain ⟨c, -, rfl⟩ := List.mem_map.mp hb
  exact upperByte_ne c hlow

/-- A byte that is no letter is in both texts or in neither. -/
theorem Same.mem_iff {s t : List UInt8} (h : Same s t) {c : UInt8} (hc : c < 65) : c ∈ s ↔ c ∈ t := by
  have hmem : ∀ u : List UInt8, c ∈ u ↔ c ∈ u.map lowerByte := by
    intro u
    constructor
    · intro hu
      have hlow : ∀ c : UInt8, c < 65 → lowerByte c = c := forall_byte (by decide +kernel)
      exact List.mem_map.mpr ⟨c, hu, hlow c hc⟩
    · intro hu
      obtain ⟨b, hb, hbc⟩ := List.mem_map.mp hu
      rwa [← eq_of_lowerByte_eq hc hbc]
  rw [hmem s, h, ← hmem t]

end LetterCase
