import ModularNetServer.Json.Proofs.DumpProofs
import ModularNetServer.Library.Utf8

/-!
# The decoder reads UTF-8

The states of the decoder are what is still to come of a character: how many bytes, and the range of the next one.
So it accepts the bytes of characters and no others, and it has the code point after the last byte of each.
-/

namespace ModularNetServer

open Cxx Utf8

namespace Json

/-- What a state inside a character expects: the range of the next byte, and the state after it. -/
def expects (state : Nat) : Nat × Nat × Nat :=
  match state with
  | 2 => (0x80, 0xBF, 0)
  | 3 => (0x80, 0xBF, 2)
  | 4 => (0xA0, 0xBF, 2)
  | 5 => (0x80, 0x9F, 2)
  | 6 => (0x90, 0xBF, 3)
  | 7 => (0x80, 0xBF, 3)
  | _ => (0x80, 0x8F, 3)

/-- The state after the first byte of a character. -/
def firstState (b : UInt8) : Nat :=
  let n := b.toNat
  if n ≤ 0x7F then 0
  else if 0xC2 ≤ n ∧ n ≤ 0xDF then 2
  else if n = 0xE0 then 4
  else if n = 0xED then 5
  else if 0xE1 ≤ n ∧ n ≤ 0xEF then 3
  else if n = 0xF0 then 6
  else if 0xF1 ≤ n ∧ n ≤ 0xF3 then 7
  else if n = 0xF4 then 8
  else 1

/-- The code point so far, after the first byte of a character. -/
def firstBits (b : UInt8) : Nat :=
  let n := b.toNat
  if n ≤ 0x7F then n else if n ≤ 0xDF then n - 0xC0 else if n ≤ 0xEF then n - 0xE0 else n - 0xF0

/-- The first byte of a character. -/
theorem decode_first (codep : Nat) (b : UInt8) :
    (decode utf8Accept codep b).1 = firstState b ∧
      (firstState b ≠ utf8Reject → (decode utf8Accept codep b).2 = firstBits b) := by
  rw [show decode utf8Accept codep b = decode utf8Accept 0 b from rfl]
  revert b
  exact LetterCase.forall_byte (by decide +kernel)

/-- A further byte of a character. -/
theorem decode_next {state : Nat} (hstate : 2 ≤ state ∧ state ≤ 8) (codep : Nat) (b : UInt8) :
    decode state codep b =
      (if (expects state).1 ≤ b.toNat ∧ b.toNat ≤ (expects state).2.1 then (expects state).2.2 else utf8Reject,
        b.toNat % 64 + codep * 64) := by
  have hstates : ∀ state < 9, 2 ≤ state → ∀ n < 256, (decode state 0 (UInt8.ofNat n)).1 =
      if (expects state).1 ≤ (UInt8.ofNat n).toNat ∧ (UInt8.ofNat n).toNat ≤ (expects state).2.1 then
        (expects state).2.2 else utf8Reject := by decide +kernel
  refine Prod.ext ?_ ?_
  · revert b
    exact LetterCase.forall_byte (hstates state (by omega) hstate.1)
  · show (if state ≠ utf8Accept then b.toNat % 64 + codep * 64 else _) = _
    exact if_pos (by unfold utf8Accept; omega)

/-! ## What is accepted -/

/-- An accepted text goes on with a byte in range. -/
theorem accepts_next {state : Nat} (hstate : 2 ≤ state ∧ state ≤ 8) {codep : Nat} {s : Str}
    (h : acceptsFrom state codep s = true) :
    ∃ b rest codep', s = b :: rest ∧ (expects state).1 ≤ b.toNat ∧ b.toNat ≤ (expects state).2.1 ∧
      acceptsFrom (expects state).2.2 codep' rest = true := by
  cases s with
  | nil =>
    rw [acceptsFrom, beq_iff_eq, utf8Accept] at h
    omega
  | cons b rest =>
    simp only [acceptsFrom, decode_next hstate, Bool.and_eq_true, bne_iff_ne] at h
    by_cases hrange : (expects state).1 ≤ b.toNat ∧ b.toNat ≤ (expects state).2.1
    · rw [if_pos hrange] at h
      exact ⟨b, rest, _, rfl, hrange.1, hrange.2, h.2⟩
    · rw [if_neg hrange] at h
      exact absurd rfl h.1

/-- Two bytes are still to come. -/
theorem accepts_two {state : Nat} (hstate : 2 ≤ state ∧ state ≤ 8) (hnext : (expects state).2.2 = 2) {codep : Nat}
    {s : Str} (h : acceptsFrom state codep s = true) :
    ∃ b c rest codep', s = b :: c :: rest ∧ (expects state).1 ≤ b.toNat ∧ b.toNat ≤ (expects state).2.1 ∧
      IsTail c ∧ acceptsFrom utf8Accept codep' rest = true := by
  obtain ⟨b, rest, codep1, rfl, hlo, hhi, hrest⟩ := accepts_next hstate h
  rw [hnext] at hrest
  obtain ⟨c, rest, codep2, rfl, hlo', hhi', hrest⟩ := accepts_next (by decide) hrest
  exact ⟨b, c, rest, codep2, rfl, hlo, hhi, ⟨hlo', hhi'⟩, hrest⟩

/-- Three bytes are still to come. -/
theorem accepts_three {state : Nat} (hstate : 2 ≤ state ∧ state ≤ 8) (hnext : (expects state).2.2 = 3) {codep : Nat}
    {s : Str} (h : acceptsFrom state codep s = true) :
    ∃ b c d rest codep', s = b :: c :: d :: rest ∧ (expects state).1 ≤ b.toNat ∧ b.toNat ≤ (expects state).2.1 ∧
      IsTail c ∧ IsTail d ∧ acceptsFrom utf8Accept codep' rest = true := by
  obtain ⟨b, rest, codep1, rfl, hlo, hhi, hrest⟩ := accepts_next hstate h
  rw [hnext] at hrest
  obtain ⟨c, d, rest, codep2, rfl, hlo', hhi', hd, hrest⟩ := accepts_two (by decide) (by decide) hrest
  exact ⟨b, c, d, rest, codep2, rfl, hlo, hhi, ⟨hlo', hhi'⟩, hd, hrest⟩

/-- An accepted text starts with the bytes of a character. -/
theorem accepts_first {codep : Nat} {a : UInt8} {s : Str} (h : acceptsFrom utf8Accept codep (a :: s) = true) :
    ∃ bytes n rest codep', Encodes bytes n ∧ a :: s = bytes ++ rest ∧ acceptsFrom utf8Accept codep' rest = true := by
  simp only [acceptsFrom, (decode_first codep a).1, Bool.and_eq_true, bne_iff_ne] at h
  obtain ⟨hreject, hrest⟩ := h
  generalize (decode utf8Accept codep a).2 = codep1 at hrest
  generalize hstate : firstState a = state at hreject hrest
  dsimp only [firstState] at hstate
  split_ifs at hstate with h0 h2 h4 h5 h3 h6 h7 h8
  all_goals subst hstate
  · exact ⟨[a], _, s, codep1, .one a h0 rfl, rfl, hrest⟩
  · obtain ⟨b, rest, codep2, rfl, hlo, hhi, hrest⟩ := accepts_next (by decide) hrest
    exact ⟨[a, b], _, rest, codep2, .two a b h2 ⟨hlo, hhi⟩ rfl, rfl, hrest⟩
  · obtain ⟨b, c, rest, codep2, rfl, hlo, hhi, hc, hrest⟩ := accepts_two (by decide) (by decide) hrest
    simp only [expects] at hlo hhi
    exact ⟨[a, b, c], _, rest, codep2, .three a b c (by omega) ⟨by omega, by omega⟩ hc (by omega) (by omega) rfl, rfl,
      hrest⟩
  · obtain ⟨b, c, rest, codep2, rfl, hlo, hhi, hc, hrest⟩ := accepts_two (by decide) (by decide) hrest
    simp only [expects] at hlo hhi
    exact ⟨[a, b, c], _, rest, codep2, .three a b c (by omega) ⟨by omega, by omega⟩ hc (by omega) (by omega) rfl, rfl,
      hrest⟩
  · obtain ⟨b, c, rest, codep2, rfl, hlo, hhi, hc, hrest⟩ := accepts_two (by decide) (by decide) hrest
    simp only [expects] at hlo hhi
    exact ⟨[a, b, c], _, rest, codep2, .three a b c (by omega) ⟨by omega, by omega⟩ hc (by omega) (by omega) rfl, rfl,
      hrest⟩
  · obtain ⟨b, c, d, rest, codep2, rfl, hlo, hhi, hc, hd, hrest⟩ := accepts_three (by decide) (by decide) hrest
    simp only [expects] at hlo hhi
    exact ⟨[a, b, c, d], _, rest, codep2,
      .four a b c d (by omega) ⟨by omega, by omega⟩ hc hd (by omega) (by omega) rfl, rfl, hrest⟩
  · obtain ⟨b, c, d, rest, codep2, rfl, hlo, hhi, hc, hd, hrest⟩ := accepts_three (by decide) (by decide) hrest
    simp only [expects] at hlo hhi
    exact ⟨[a, b, c, d], _, rest, codep2,
      .four a b c d (by omega) ⟨by omega, by omega⟩ hc hd (by omega) (by omega) rfl, rfl, hrest⟩
  · obtain ⟨b, c, d, rest, codep2, rfl, hlo, hhi, hc, hd, hrest⟩ := accepts_three (by decide) (by decide) hrest
    simp only [expects] at hlo hhi
    exact ⟨[a, b, c, d], _, rest, codep2,
      .four a b c d (by omega) ⟨by omega, by omega⟩ hc hd (by omega) (by omega) rfl, rfl, hrest⟩
  · exact absurd rfl hreject

/-- An accepted text is the bytes of characters. -/
theorem isUtf8_of_accepts {codep : Nat} {s : Str} (h : acceptsFrom utf8Accept codep s = true) : IsUtf8 s := by
  induction hlength : s.length using Nat.strong_induction_on generalizing s codep with
  | _ length ih =>
    cases s with
    | nil => exact isUtf8_nil
    | cons a s =>
      obtain ⟨bytes, n, rest, codep', hbytes, heq, hrest⟩ := accepts_first h
      obtain ⟨c, -, rfl⟩ := hbytes.exists_char
      rw [heq]
      have hshorter : rest.length < length := by
        rw [← hlength, heq, List.length_append, String.length_utf8EncodeChar]
        have := Char.utf8Size_pos c
        omega
      exact isUtf8_append (isUtf8_char c) (ih _ hshorter hrest rfl)

/-! ## What is written -/

/-- The text that is written for the bytes of a character. -/
def escaped (bytes : Str) (n : Nat) : Str := if n ≤ 0x7F then escapeCodepoint n (UInt8.ofNat n) else bytes

/-- Only ASCII characters are escaped. -/
theorem escapeCodepoint_of_lt {codep : Nat} (h : 0x7F < codep) (byte : UInt8) :
    escapeCodepoint codep byte = [byte] := by
  unfold escapeCodepoint
  split
  any_goals omega
  rw [if_neg (by omega)]

theorem dumpEscapedFrom_cons (state codep : Nat) (byte : UInt8) (rest : Str) :
    dumpEscapedFrom state codep (byte :: rest) =
      if (decode state codep byte).1 = utf8Reject then .error (.jsonTypeError 316)
      else
        (dumpEscapedFrom (decode state codep byte).1 (decode state codep byte).2 rest).map
          ((if (decode state codep byte).1 = utf8Accept then escapeCodepoint (decode state codep byte).2 byte
            else [byte]) ++ ·) := by
  simp only [dumpEscapedFrom]
  by_cases hreject : (decode state codep byte).1 = utf8Reject
  · rw [if_pos hreject, if_pos hreject]
  · rw [if_neg hreject, if_neg hreject]
    cases dumpEscapedFrom (decode state codep byte).1 (decode state codep byte).2 rest <;> rfl

/-- The first byte of several is copied. -/
theorem dumpEscapedFrom_first {a : UInt8} (hstate : firstState a ≠ utf8Reject ∧ firstState a ≠ utf8Accept)
    (codep : Nat) (rest : Str) :
    dumpEscapedFrom utf8Accept codep (a :: rest) =
      (dumpEscapedFrom (firstState a) (firstBits a) rest).map ([a] ++ ·) := by
  obtain ⟨hfirst, hbits⟩ := decode_first codep a
  rw [dumpEscapedFrom_cons, hfirst, hbits hstate.1, if_neg hstate.1, if_neg hstate.2]

theorem decode_inside {state : Nat} (hstate : 2 ≤ state ∧ state ≤ 8) (codep : Nat) {b : UInt8}
    (hlo : (expects state).1 ≤ b.toNat) (hhi : b.toNat ≤ (expects state).2.1) :
    decode state codep b = ((expects state).2.2, b.toNat % 64 + codep * 64) := by
  rw [decode_next hstate, if_pos ⟨hlo, hhi⟩]

/-- A further byte that is not the last one is copied. -/
theorem dumpEscapedFrom_next {state : Nat} (hstate : 2 ≤ state ∧ state ≤ 8) (hnext : (expects state).2.2 ≠ utf8Accept)
    (codep : Nat) {b : UInt8} (hlo : (expects state).1 ≤ b.toNat) (hhi : b.toNat ≤ (expects state).2.1) (rest : Str) :
    dumpEscapedFrom state codep (b :: rest) =
      (dumpEscapedFrom (expects state).2.2 (b.toNat % 64 + codep * 64) rest).map ([b] ++ ·) := by
  have hreject : ∀ state < 9, (expects state).2.2 ≠ utf8Reject := by decide
  rw [dumpEscapedFrom_cons, decode_inside hstate codep hlo hhi, if_neg (hreject state (by omega)), if_neg hnext]

/-- So is the last one: no code point of several bytes is escaped. -/
theorem dumpEscapedFrom_one {codep : Nat} {b : UInt8} (hb : IsTail b) (hcode : 0x7F < b.toNat % 64 + codep * 64)
    (rest : Str) :
    dumpEscapedFrom 2 codep (b :: rest) =
      (dumpEscapedFrom utf8Accept (b.toNat % 64 + codep * 64) rest).map ([b] ++ ·) := by
  have hinside : decode 2 codep b = (utf8Accept, b.toNat % 64 + codep * 64) := decode_inside (by decide) codep hb.1 hb.2
  have hreject : utf8Accept ≠ utf8Reject := by decide
  rw [dumpEscapedFrom_cons, hinside, if_neg hreject, if_pos rfl, escapeCodepoint_of_lt hcode]

theorem dumpEscapedFrom_two {state : Nat} (hstate : 2 ≤ state ∧ state ≤ 8) (hnext : (expects state).2.2 = 2)
    {codep : Nat} {b c : UInt8} (hlo : (expects state).1 ≤ b.toNat) (hhi : b.toNat ≤ (expects state).2.1)
    (hc : IsTail c) (hcode : 0x7F < c.toNat % 64 + (b.toNat % 64 + codep * 64) * 64) (rest : Str) :
    dumpEscapedFrom state codep (b :: c :: rest) =
      (dumpEscapedFrom utf8Accept (c.toNat % 64 + (b.toNat % 64 + codep * 64) * 64) rest).map ([b, c] ++ ·) := by
  have hinside : (expects state).2.2 ≠ utf8Accept := by rw [hnext]; decide
  rw [dumpEscapedFrom_next hstate hinside codep hlo hhi, hnext, dumpEscapedFrom_one hc hcode]
  cases dumpEscapedFrom utf8Accept (c.toNat % 64 + (b.toNat % 64 + codep * 64) * 64) rest <;> rfl

theorem dumpEscapedFrom_three {state : Nat} (hstate : 2 ≤ state ∧ state ≤ 8) (hnext : (expects state).2.2 = 3)
    {codep : Nat} {b c d : UInt8} (hlo : (expects state).1 ≤ b.toNat) (hhi : b.toNat ≤ (expects state).2.1)
    (hc : IsTail c) (hd : IsTail d)
    (hcode : 0x7F < d.toNat % 64 + (c.toNat % 64 + (b.toNat % 64 + codep * 64) * 64) * 64) (rest : Str) :
    dumpEscapedFrom state codep (b :: c :: d :: rest) =
      (dumpEscapedFrom utf8Accept (d.toNat % 64 + (c.toNat % 64 + (b.toNat % 64 + codep * 64) * 64) * 64) rest).map
        ([b, c, d] ++ ·) := by
  have hinside : (expects state).2.2 ≠ utf8Accept := by rw [hnext]; decide
  rw [dumpEscapedFrom_next hstate hinside codep hlo hhi, hnext,
    @dumpEscapedFrom_two 3 (by decide) (by decide) _ _ _ hc.1 hc.2 hd hcode]
  cases dumpEscapedFrom utf8Accept _ rest <;> rfl

/-- The state after the first byte of three. -/
theorem firstState_three {a b : UInt8} (ha : 0xE0 ≤ a.toNat ∧ a.toNat ≤ 0xEF) (hb : IsTail b)
    (hshort : a.toNat = 0xE0 → 0xA0 ≤ b.toNat) (hsurrogate : a.toNat = 0xED → b.toNat ≤ 0x9F) :
    ∃ state, firstState a = state ∧ 2 < state ∧ state ≤ 8 ∧ (expects state).2.2 = 2 ∧
      (expects state).1 ≤ b.toNat ∧ b.toNat ≤ (expects state).2.1 := by
  obtain ⟨hb1, hb2⟩ := hb
  refine ⟨_, rfl, ?_⟩
  unfold firstState
  dsimp only
  rw [if_neg (by omega), if_neg (by omega)]
  split_ifs with h4 h5 h3
  · exact ⟨by decide, by decide, rfl, hshort h4, hb2⟩
  · exact ⟨by decide, by decide, rfl, hb1, hsurrogate h5⟩
  · exact ⟨by decide, by decide, rfl, hb1, hb2⟩
  all_goals omega

/-- The state after the first byte of four. -/
theorem firstState_four {a b : UInt8} (ha : 0xF0 ≤ a.toNat ∧ a.toNat ≤ 0xF4) (hb : IsTail b)
    (hshort : a.toNat = 0xF0 → 0x90 ≤ b.toNat) (hlarge : a.toNat = 0xF4 → b.toNat ≤ 0x8F) :
    ∃ state, firstState a = state ∧ 2 < state ∧ state ≤ 8 ∧ (expects state).2.2 = 3 ∧
      (expects state).1 ≤ b.toNat ∧ b.toNat ≤ (expects state).2.1 := by
  obtain ⟨hb1, hb2⟩ := hb
  refine ⟨_, rfl, ?_⟩
  unfold firstState
  dsimp only
  rw [if_neg (by omega), if_neg (by omega), if_neg (by omega), if_neg (by omega), if_neg (by omega)]
  split_ifs with h6 h7 h8
  · exact ⟨by decide, by decide, rfl, hshort h6, hb2⟩
  · exact ⟨by decide, by decide, rfl, hb1, hb2⟩
  · exact ⟨by decide, by decide, rfl, hb1, hlarge h8⟩
  · omega

/-- The bytes of a character are copied, or escaped if there is one. -/
theorem dumpEscapedFrom_encodes {bytes : Str} {n : Nat} (h : Encodes bytes n) (codep : Nat) (rest : Str) :
    dumpEscapedFrom utf8Accept codep (bytes ++ rest) =
      (dumpEscapedFrom utf8Accept n rest).map (escaped bytes n ++ ·) := by
  cases h with
  | one a ha hn =>
    obtain ⟨hfirst, hbits⟩ := decode_first codep a
    have hstate : firstState a = utf8Accept := if_pos ha
    have hn' : firstBits a = n := by rw [hn]; exact if_pos ha
    have hreject : utf8Accept ≠ utf8Reject := by decide
    rw [List.singleton_append, dumpEscapedFrom_cons, hfirst, hbits (hstate ▸ hreject), hstate, hn',
      if_neg hreject, if_pos rfl, escaped, if_pos (by omega), hn, UInt8.ofNat_toNat]
  | two a b ha hb hn =>
    have hstate : firstState a = 2 := by
      unfold firstState
      dsimp only
      rw [if_neg (by omega), if_pos ha]
    have hbits : firstBits a = a.toNat - 0xC0 := by
      unfold firstBits
      dsimp only
      rw [if_neg (by omega), if_pos (by omega)]
    obtain ⟨hb1, hb2⟩ := hb
    have hn' : b.toNat % 64 + (a.toNat - 0xC0) * 64 = n := by omega
    rw [show [a, b] ++ rest = a :: b :: rest from rfl, dumpEscapedFrom_first (by rw [hstate]; decide), hstate, hbits,
      dumpEscapedFrom_one ⟨hb1, hb2⟩ (by omega), hn', escaped, if_neg (by omega)]
    cases dumpEscapedFrom utf8Accept n rest <;> rfl
  | three a b c ha hb hc hshort hsurrogate hn =>
    obtain ⟨state, hstate, hgt, hle, hnext, hlo, hhi⟩ := firstState_three ha hb hshort hsurrogate
    have hbits : firstBits a = a.toNat - 0xE0 := by
      unfold firstBits
      dsimp only
      rw [if_neg (by omega), if_neg (by omega), if_pos (by omega)]
    obtain ⟨hb1, hb2⟩ := hb
    obtain ⟨hc1, hc2⟩ := hc
    have hn' : c.toNat % 64 + (b.toNat % 64 + (a.toNat - 0xE0) * 64) * 64 = n := by omega
    have hfirst : firstState a ≠ utf8Reject ∧ firstState a ≠ utf8Accept := by
      unfold utf8Reject utf8Accept
      omega
    rw [show [a, b, c] ++ rest = a :: b :: c :: rest from rfl, dumpEscapedFrom_first hfirst, hstate, hbits,
      dumpEscapedFrom_two ⟨by omega, hle⟩ hnext hlo hhi ⟨hc1, hc2⟩ (by omega), hn', escaped, if_neg (by omega)]
    cases dumpEscapedFrom utf8Accept n rest <;> rfl
  | four a b c d ha hb hc hd hshort hlarge hn =>
    obtain ⟨state, hstate, hgt, hle, hnext, hlo, hhi⟩ := firstState_four ha hb hshort hlarge
    have hbits : firstBits a = a.toNat - 0xF0 := by
      unfold firstBits
      dsimp only
      rw [if_neg (by omega), if_neg (by omega), if_neg (by omega)]
    obtain ⟨hb1, hb2⟩ := hb
    obtain ⟨hc1, hc2⟩ := hc
    obtain ⟨hd1, hd2⟩ := hd
    have hn' : d.toNat % 64 + (c.toNat % 64 + (b.toNat % 64 + (a.toNat - 0xF0) * 64) * 64) * 64 = n := by omega
    have hfirst : firstState a ≠ utf8Reject ∧ firstState a ≠ utf8Accept := by
      unfold utf8Reject utf8Accept
      omega
    rw [show [a, b, c, d] ++ rest = a :: b :: c :: d :: rest from rfl, dumpEscapedFrom_first hfirst, hstate, hbits,
      dumpEscapedFrom_three ⟨by omega, hle⟩ hnext hlo hhi ⟨hc1, hc2⟩ ⟨hd1, hd2⟩ (by omega), hn', escaped,
      if_neg (by omega)]
    cases dumpEscapedFrom utf8Accept n rest <;> rfl

/-- The text of a string, character by character. -/
theorem dumpEscaped_encode (cs : List Char) :
    dumpEscaped (encode cs) = .ok (cs.flatMap fun c => escaped (String.utf8EncodeChar c) c.toNat) := by
  unfold dumpEscaped
  generalize 0 = codep
  induction cs generalizing codep with
  | nil => rfl
  | cons c cs ih =>
    rw [encode, List.flatMap_cons, List.flatMap_cons, dumpEscapedFrom_encodes (encodes_utf8EncodeChar c)]
    rw [encode] at ih
    rw [ih]
    rfl

/-- **Strict decoding.** The decoder accepts a text exactly if it is UTF-8. -/
theorem isUtf8_iff (s : Str) : isUtf8 s = true ↔ IsUtf8 s := by
  constructor
  · exact isUtf8_of_accepts
  · rintro ⟨cs, rfl⟩
    rw [isUtf8, ← dumpEscapedFrom_isOk]
    have hdump := dumpEscaped_encode cs
    unfold dumpEscaped at hdump
    rw [hdump]
    rfl

end Json

end ModularNetServer
