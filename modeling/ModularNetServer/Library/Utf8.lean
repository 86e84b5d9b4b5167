import ModularNetServer.Library.LetterCase

/-!
# UTF-8

The bytes of characters, and the byte sequences that they are: a table of ranges for the bytes of one
character, with the code point that they stand for.
-/

namespace Utf8

/-- The bytes of some characters. -/
def encode (cs : List Char) : List UInt8 := cs.flatMap String.utf8EncodeChar

/-- The text is the encoding of some characters. -/
def IsUtf8 (s : List UInt8) : Prop := ∃ cs, s = encode cs

/-- A byte that continues a character. -/
def IsTail (b : UInt8) : Prop := 0x80 ≤ b.toNat ∧ b.toNat ≤ 0xBF

/-- The bytes of one character, with its code point. -/
inductive Encodes : List UInt8 → Nat → Prop
  | one (a : UInt8) {n : Nat} (ha : a.toNat ≤ 0x7F) (hn : n = a.toNat) : Encodes [a] n
  | two (a b : UInt8) {n : Nat} (ha : 0xC2 ≤ a.toNat ∧ a.toNat ≤ 0xDF) (hb : IsTail b)
      (hn : n = (a.toNat - 0xC0) * 64 + (b.toNat - 0x80)) : Encodes [a, b] n
  | three (a b c : UInt8) {n : Nat} (ha : 0xE0 ≤ a.toNat ∧ a.toNat ≤ 0xEF) (hb : IsTail b) (hc : IsTail c)
      (hshort : a.toNat = 0xE0 → 0xA0 ≤ b.toNat) (hsurrogate : a.toNat = 0xED → b.toNat ≤ 0x9F)
      (hn : n = (a.toNat - 0xE0) * 4096 + (b.toNat - 0x80) * 64 + (c.toNat - 0x80)) : Encodes [a, b, c] n
  | four (a b c d : UInt8) {n : Nat} (ha : 0xF0 ≤ a.toNat ∧ a.toNat ≤ 0xF4) (hb : IsTail b) (hc : IsTail c)
      (hd : IsTail d) (hshort : a.toNat = 0xF0 → 0x90 ≤ b.toNat) (hlarge : a.toNat = 0xF4 → b.toNat ≤ 0x8F)
      (hn : n = (a.toNat - 0xF0) * 262144 + (b.toNat - 0x80) * 4096 + (c.toNat - 0x80) * 64 + (d.toNat - 0x80)) :
      Encodes [a, b, c, d] n

theorem encode_cons (c : Char) (cs : List Char) : encode (c :: cs) = String.utf8EncodeChar c ++ encode cs :=
  List.flatMap_cons

theorem isUtf8_nil : IsUtf8 [] := ⟨[], rfl⟩

theorem isUtf8_char (c : Char) : IsUtf8 (String.utf8EncodeChar c) :=
  ⟨[c], (List.append_nil _).symm⟩

theorem isUtf8_append {s t : List UInt8} (hs : IsUtf8 s) (ht : IsUtf8 t) : IsUtf8 (s ++ t) := by
  obtain ⟨cs, rfl⟩ := hs
  obtain ⟨ds, rfl⟩ := ht
  exact ⟨cs ++ ds, List.flatMap_append.symm⟩

/-- The code point of a character is no surrogate and in range. -/
theorem toNat_valid (c : Char) : c.toNat < 0xD800 ∨ 0xDFFF < c.toNat ∧ c.toNat < 0x110000 := c.valid

/-- The bytes of a character, by its code point. -/
theorem utf8EncodeChar_eq (c : Char) :
    String.utf8EncodeChar c =
      if c.toNat ≤ 0x7F then [UInt8.ofNat c.toNat]
      else if c.toNat ≤ 0x7FF then
        [UInt8.ofNat (c.toNat / 64 % 0x20 + 0xC0), UInt8.ofNat (c.toNat % 0x40 + 0x80)]
      else if c.toNat ≤ 0xFFFF then
        [UInt8.ofNat (c.toNat / 4096 % 0x10 + 0xE0), UInt8.ofNat (c.toNat / 64 % 0x40 + 0x80),
          UInt8.ofNat (c.toNat % 0x40 + 0x80)]
      else
        [UInt8.ofNat (c.toNat / 262144 % 0x08 + 0xF0), UInt8.ofNat (c.toNat / 4096 % 0x40 + 0x80),
          UInt8.ofNat (c.toNat / 64 % 0x40 + 0x80), UInt8.ofNat (c.toNat % 0x40 + 0x80)] := rfl

/-- The bytes of a character are in the table. -/
theorem encodes_utf8EncodeChar (c : Char) : Encodes (String.utf8EncodeChar c) c.toNat := by
  have hvalid := toNat_valid c
  have hbyte : ∀ {n : Nat}, n < 256 → (UInt8.ofNat n).toNat = n := fun h => UInt8.toNat_ofNat_of_lt' h
  rw [utf8EncodeChar_eq]
  generalize c.toNat = n at hvalid
  -- the last byte of several, and the one before it
  have hlast : (UInt8.ofNat (n % 0x40 + 0x80)).toNat = n % 64 + 0x80 := hbyte (by omega)
  have hmiddle : (UInt8.ofNat (n / 64 % 0x40 + 0x80)).toNat = n / 64 % 64 + 0x80 := hbyte (by omega)
  split_ifs with h1 h2 h3
  · have ha : (UInt8.ofNat n).toNat = n := hbyte (by omega)
    exact .one _ (by omega) ha.symm
  · have ha : (UInt8.ofNat (n / 64 % 0x20 + 0xC0)).toNat = n / 64 % 0x20 + 0xC0 := hbyte (by omega)
    exact .two _ _ (by omega) ⟨by omega, by omega⟩ (by omega)
  · have ha : (UInt8.ofNat (n / 4096 % 0x10 + 0xE0)).toNat = n / 4096 % 0x10 + 0xE0 := hbyte (by omega)
    exact .three _ _ _ (by omega) ⟨by omega, by omega⟩ ⟨by omega, by omega⟩ (by omega) (by omega) (by omega)
  · have ha : (UInt8.ofNat (n / 262144 % 0x08 + 0xF0)).toNat = n / 262144 % 0x08 + 0xF0 := hbyte (by omega)
    have hb : (UInt8.ofNat (n / 4096 % 0x40 + 0x80)).toNat = n / 4096 % 0x40 + 0x80 := hbyte (by omega)
    exact .four _ _ _ _ (by omega) ⟨by omega, by omega⟩ ⟨by omega, by omega⟩ ⟨by omega, by omega⟩
      (by omega) (by omega) (by omega)

/-- The code points of the table are those of characters. -/
theorem Encodes.valid {s : List UInt8} {n : Nat} (h : Encodes s n) :
    n < 0xD800 ∨ 0xDFFF < n ∧ n < 0x110000 := by
  cases h with
  | one a ha hn => omega
  | two a b ha hb hn =>
    have := hb.2
    omega
  | three a b c ha hb hc hshort hsurrogate hn =>
    obtain ⟨-, hb⟩ := hb
    obtain ⟨-, hc⟩ := hc
    omega
  | four a b c d ha hb hc hd hshort hlarge hn =>
    obtain ⟨-, hb⟩ := hb
    obtain ⟨-, hc⟩ := hc
    obtain ⟨-, hd⟩ := hd
    omega

/-- Only the bytes of characters are. -/
theorem Encodes.exists_char {s : List UInt8} {n : Nat} (h : Encodes s n) :
    ∃ c : Char, c.toNat = n ∧ String.utf8EncodeChar c = s := by
  obtain ⟨c, hc⟩ : ∃ c : Char, c.toNat = n := ⟨Char.ofNatAux n h.valid, UInt32.toNat_ofNatLT⟩
  refine ⟨c, hc, ?_⟩
  have hbyte : ∀ {m : Nat} {b : UInt8}, m = b.toNat → UInt8.ofNat m = b := by
    rintro m b rfl
    exact UInt8.ofNat_toNat
  rw [utf8EncodeChar_eq, hc]
  cases h with
  | one a ha hn =>
    rw [if_pos (by omega), hbyte hn]
  | two a b ha hb hn =>
    obtain ⟨hb1, hb2⟩ := hb
    rw [if_neg (by omega), if_pos (by omega), @hbyte _ a (by omega), @hbyte _ b (by omega)]
  | three a b c ha hb hc hshort hsurrogate hn =>
    obtain ⟨hb1, hb2⟩ := hb
    obtain ⟨hc1, hc2⟩ := hc
    rw [if_neg (by omega), if_neg (by omega), if_pos (by omega), @hbyte _ a (by omega), @hbyte _ b (by omega),
      @hbyte _ c (by omega)]
  | four a b c d ha hb hc hd hshort hlarge hn =>
    obtain ⟨hb1, hb2⟩ := hb
    obtain ⟨hc1, hc2⟩ := hc
    obtain ⟨hd1, hd2⟩ := hd
    rw [if_neg (by omega), if_neg (by omega), if_neg (by omega), @hbyte _ a (by omega), @hbyte _ b (by omega),
      @hbyte _ c (by omega), @hbyte _ d (by omega)]

/-- A character of several bytes has none below 0x80. -/
theorem Encodes.large {s : List UInt8} {n : Nat} (h : Encodes s n) (hn : 0x7F < n) : ∀ b ∈ s, 0x80 ≤ b := by
  have hle : ∀ {b : UInt8}, 0x80 ≤ b.toNat → 0x80 ≤ b := fun h => h
  cases h with
  | one a ha hn => omega
  | two a b ha hb hn =>
    simp only [List.forall_mem_cons]
    exact ⟨hle (by omega), hle hb.1, fun _ h => absurd h List.not_mem_nil⟩
  | three a b c ha hb hc hshort hsurrogate hn =>
    simp only [List.forall_mem_cons]
    exact ⟨hle (by omega), hle hb.1, hle hc.1, fun _ h => absurd h List.not_mem_nil⟩
  | four a b c d ha hb hc hd hshort hlarge hn =>
    simp only [List.forall_mem_cons]
    exact ⟨hle (by omega), hle hb.1, hle hc.1, hle hd.1, fun _ h => absurd h List.not_mem_nil⟩

/-- An ASCII byte is a character. -/
theorem isUtf8_cons {b : UInt8} {s : List UInt8} (hb : b.toNat ≤ 0x7F) (hs : IsUtf8 s) : IsUtf8 (b :: s) := by
  obtain ⟨c, -, hc⟩ := (Encodes.one b hb rfl).exists_char
  exact isUtf8_append (hc ▸ isUtf8_char c : IsUtf8 [b]) hs

theorem isUtf8_ascii {s : List UInt8} (h : ∀ b ∈ s, b.toNat ≤ 0x7F) : IsUtf8 s := by
  induction s with
  | nil => exact isUtf8_nil
  | cons b s ih =>
    rw [List.forall_mem_cons] at h
    exact isUtf8_cons h.1 (ih h.2)

end Utf8
