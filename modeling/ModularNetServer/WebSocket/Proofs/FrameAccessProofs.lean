import ModularNetServer.WebSocket.FrameAccess

/-!
# Parsing hostile input

A call of `parseWebSocketFrame` is safe exactly on the buffers whose announced length does not wrap
around: the completeness check adds the length to a position in 64-bit numbers.
-/

namespace ModularNetServer

open Cxx

namespace WebSocketConn

variable {buf : Str} {second : UInt8} {payloadLen pos : Nat}

set_option maxRecDepth 2000 in
/-- The second byte is its low seven bits and the mask bit. -/
theorem second_eq_ff (second : UInt8) :
    second = 0xFF ↔ (second &&& 0x7f).toNat = 127 ∧ second &&& 0x80 ≠ 0 := by
  have h : ∀ n : Fin 256, UInt8.ofNat n = 0xFF ↔
      (UInt8.ofNat n &&& 0x7f).toNat = 127 ∧ UInt8.ofNat n &&& 0x80 ≠ 0 := by decide
  have hsecond := h ⟨second.toNat, second.toNat_lt⟩
  simpa using hsecond

/-- The length and the position of the mask, by the form in which the length is announced. -/
theorem payloadLength_cases (h : payloadLength buf second = some (payloadLen, pos)) :
    (pos ≤ buf.length ∨ pos = 2) ∧ pos ≤ 10 ∧
      (payloadLen < 2 ^ 16 ∨
        (second &&& 0x7f).toNat = 127 ∧ pos = 10 ∧ 10 ≤ buf.length ∧
          payloadLen = BigEndian.decode ((buf.drop 2).take 8)) := by
  unfold payloadLength at h
  split at h
  · split at h
    · cases h
    · cases h
      have hlt := BigEndian.decode_lt ((buf.drop 2).take 2)
      rw [List.length_take, List.length_drop, Nat.min_eq_left (by omega)] at hlt
      exact ⟨.inl (by omega), by omega, .inl (by omega)⟩
  · rename_i h127
    split at h
    · cases h
    · cases h
      exact ⟨.inl (by omega), by omega, .inr ⟨h127, rfl, by omega, rfl⟩⟩
  · cases h
    have hlt : (second &&& 0x7f).toNat ≤ 127 := by
      rw [UInt8.toNat_and]
      exact Nat.and_le_right
    exact ⟨.inr rfl, by omega, .inl (by omega)⟩

/-- A length of 64 bits. -/
theorem payloadLen_lt (h : payloadLength buf second = some (payloadLen, pos)) : payloadLen < 2 ^ 64 := by
  obtain ⟨-, -, hlt | ⟨-, -, hbuf, rfl⟩⟩ := payloadLength_cases h
  · omega
  · have hlt := BigEndian.decode_lt ((buf.drop 2).take 8)
    rw [List.length_take, List.length_drop, Nat.min_eq_left (by omega)] at hlt
    omega

theorem lengthAccesses_within : ∀ access ∈ lengthAccesses buf second, access.Within buf.length := by
  intro access haccess
  unfold lengthAccesses at haccess
  split at haccess
  · split at haccess
    · cases haccess
    · rename_i hbuf
      rcases List.mem_pair.mp haccess with rfl | rfl <;> simp only [FrameAccess.Within] <;> omega
  · split at haccess
    · cases haccess
    · rename_i hbuf
      obtain ⟨i, hi, rfl⟩ := List.mem_map.mp haccess
      rw [List.mem_range'_1] at hi
      simp only [FrameAccess.Within]
      omega
  · cases haccess

/-- The loop reads within the buffer if the payload ends there. -/
theorem unmaskAccesses_within (h4 : 4 ≤ pos) (hle : pos + payloadLen ≤ buf.length) :
    ∀ access ∈ unmaskAccesses pos payloadLen, access.Within buf.length := by
  intro access haccess
  obtain ⟨i, hi, haccess⟩ := List.mem_flatMap.mp haccess
  rw [List.mem_range] at hi
  have hmod : i % 4 < 4 := Nat.mod_lt _ (by omega)
  rcases List.mem_pair.mp haccess with rfl | rfl <;> simp only [FrameAccess.Within] <;> omega

/-- A call that returns a message reserves room for it and erases what it takes off the buffer. -/
theorem frameAccesses_of_parse {msg rest : Str} (h : parseWebSocketFrame buf = .ok (some (msg, rest))) :
    ∃ payloadLen count, msg.length ≤ payloadLen ∧ rest = buf.drop count ∧
      .reserve payloadLen ∈ frameAccesses buf ∧ .erase count ∈ frameAccesses buf := by
  unfold parseWebSocketFrame at h
  unfold frameAccesses
  split at h
  · split at h
    · cases h
    · rename_i payloadLen pos hpay
      obtain ⟨-, hpos, -⟩ := payloadLength_cases hpay
      split_ifs at h with hmask hshort hlarge
      · cases h
      · cases h
      · cases h
        simp only [hpay, hmask, hshort, hlarge, if_false]
        rw [Nat.mod_eq_of_lt (by omega)]
        refine ⟨payloadLen, pos + 4 + payloadLen, ?_, rfl, by simp, by simp⟩
        simp only [unmask, List.length_mapIdx, List.length_take]
        omega
  · cases h

/-- A wrapped length reaches `reserve`, which throws. -/
theorem parse_of_lengthWraps (h : LengthWraps buf) :
    parseWebSocketFrame buf = .error .lengthError ∧
      .reserve (BigEndian.decode ((buf.drop 2).take 8)) ∈ frameAccesses buf := by
  obtain ⟨hsecond, hbuf, hwrap, hreach⟩ := h
  have hlt := BigEndian.decode_lt ((buf.drop 2).take 8)
  rw [List.length_take, List.length_drop, Nat.min_eq_left (by omega)] at hlt
  obtain ⟨first, second, tail, rfl⟩ : ∃ first second tail, buf = first :: second :: tail := by
    match buf, hbuf with
    | first :: second :: tail, _ => exact ⟨first, second, tail, rfl⟩
  obtain rfl : second = 0xFF := by simpa using hsecond
  have hpay : payloadLength (first :: 0xFF :: tail) 0xFF =
      some (BigEndian.decode (((first :: 0xFF :: tail).drop 2).take 8), 10) := if_neg (by omega)
  have hmod : (10 + 4 + BigEndian.decode (((first :: 0xFF :: tail).drop 2).take 8)) % 2 ^ 64 =
      14 + BigEndian.decode (((first :: 0xFF :: tail).drop 2).take 8) - 2 ^ 64 := by omega
  have hmask : ¬ (0xFF : UInt8) &&& 0x80 = 0 := by decide
  have hreached : ¬ (first :: 0xFF :: tail).length <
      14 + BigEndian.decode (((first :: 0xFF :: tail).drop 2).take 8) - 2 ^ 64 := by omega
  have hlarge : 2 ^ 63 ≤ BigEndian.decode (((first :: 0xFF :: tail).drop 2).take 8) := by omega
  unfold parseWebSocketFrame frameAccesses
  simp only [hpay, hmod, hmask, hreached, hlarge, if_true, if_false]
  exact ⟨trivial, by simp⟩

/-- Where the length does not wrap around, the completeness check says what it is meant to say. -/
theorem payload_within (hwraps : ¬ LengthWraps buf) (hsecond : buf[1]? = some second)
    (hmask : second &&& 0x80 ≠ 0) (hpay : payloadLength buf second = some (payloadLen, pos))
    (hshort : ¬ buf.length < (pos + 4 + payloadLen) % 2 ^ 64) : pos + 4 + payloadLen ≤ buf.length := by
  obtain ⟨-, hpos, hform⟩ := payloadLength_cases hpay
  have hlt := payloadLen_lt hpay
  have hfits : pos + 4 + payloadLen < 2 ^ 64 := by
    by_contra hover
    obtain hsmall | ⟨h127, rfl, h10, rfl⟩ := hform
    · omega
    · refine hwraps ⟨?_, h10, by omega, by omega⟩
      rw [hsecond, (second_eq_ff second).mpr ⟨h127, hmask⟩]
  rw [Nat.mod_eq_of_lt hfits] at hshort
  omega

theorem frameAccesses_within (hbuf : buf.length < 2 ^ 63) (hwraps : ¬ LengthWraps buf) :
    ∀ access ∈ frameAccesses buf, access.Within buf.length := by
  intro access haccess
  unfold frameAccesses at haccess
  split at haccess
  · rename_i first second tail
    rw [List.append_assoc] at haccess
    rcases List.mem_append.mp haccess with haccess | haccess
    · -- the first two bytes
      simp only [List.mem_cons, List.not_mem_nil, or_false] at haccess
      rcases haccess with rfl | rfl | rfl | rfl <;>
        simp only [FrameAccess.Within, List.length_cons] <;> omega
    rcases List.mem_append.mp haccess with haccess | haccess
    · exact lengthAccesses_within access haccess
    split at haccess
    · cases haccess
    · rename_i payloadLen pos hpay
      split_ifs at haccess with hmask hshort hlarge
      · cases haccess
      · cases haccess
      · have hend := payload_within hwraps rfl hmask hpay hshort
        omega
      · have hend := payload_within hwraps rfl hmask hpay hshort
        rw [Nat.mod_eq_of_lt (by omega)] at haccess
        rcases List.mem_cons.mp haccess with rfl | haccess
        · simp only [FrameAccess.Within]
          omega
        rcases List.mem_append.mp haccess with haccess | haccess
        · exact unmaskAccesses_within (by omega) (by omega) access haccess
        · obtain rfl := List.mem_singleton.mp haccess
          exact hend
  · cases haccess

theorem parse_ne_error (hbuf : buf.length < 2 ^ 63) (hwraps : ¬ LengthWraps buf) (e : Exception) :
    parseWebSocketFrame buf ≠ .error e := by
  intro herror
  unfold parseWebSocketFrame at herror
  split at herror
  · split at herror
    · cases herror
    · rename_i payloadLen pos hpay
      split_ifs at herror with hmask hshort hlarge
      have hend := payload_within hwraps rfl hmask hpay hshort
      omega
  · cases herror

/-- The exact condition under which parsing is safe: the announced length does not wrap around. A
    `std::string` has fewer than 2^63 bytes. -/
theorem parsesSafely_iff (buf : Str) (hbuf : buf.length < 2 ^ 63) :
    ParsesSafely buf ↔ ¬ LengthWraps buf := by
  constructor
  · intro hsafe hwraps
    exact hsafe.2 _ (parse_of_lengthWraps hwraps).1
  · intro hwraps
    exact ⟨frameAccesses_within hbuf hwraps, parse_ne_error hbuf hwraps⟩

/-- A frame that announces 2^64 - 1 bytes, of which three bytes of the mask have arrived. -/
def wrappingFrame : Str := [0x81, 0xFF] ++ List.replicate 8 0xFF ++ [1, 2, 3]

/-- The first twelve bytes of it are parsed safely. -/
theorem parsesSafely_iff_short :
    ParsesSafely (wrappingFrame.take 12) ↔ ¬ LengthWraps (wrappingFrame.take 12) :=
  parsesSafely_iff _ (by decide)

/-- With its thirteenth byte the room for its message is reserved, and the exception leaves `process`. -/
theorem wrapping_frame_throws :
    ¬ (∀ buf : Str, buf.length < 2 ^ 63 → ParsesSafely buf) ∧
      ∀ (computeAcceptKey : Str → Str) (handler : WsHandler) (m : WebsocketConnManager),
        ({ make.init 5 with status := .connected, readBuf := wrappingFrame } : WebSocketConn).process
          computeAcceptKey handler m = .error .lengthError := by
  have hwraps : LengthWraps wrappingFrame := by decide
  have hparse := (parse_of_lengthWraps hwraps).1
  refine ⟨?_, ?_⟩
  · intro h
    exact (h wrappingFrame (by decide)).2 _ hparse
  · intro computeAcceptKey handler m
    unfold process
    dsimp only
    rw [hparse]

end WebSocketConn

end ModularNetServer
