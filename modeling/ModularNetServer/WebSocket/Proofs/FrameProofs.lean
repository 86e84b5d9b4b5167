import ModularNetServer.Library.Framing
import ModularNetServer.WebSocket.Proofs.MaskedFrameProofs

/-!
# Frames

What a client sends as a text frame, with the mask and the shortest form of the length, and that
`parseWebSocketFrame` takes such frames off the front of a buffer.
-/

namespace ModularNetServer

open Cxx

/-- A complete masked text frame with the FIN bit set. A length has 63 bits. -/
structure Frame where
  payload : Str
  mask : Str
  mask_length : mask.length = 4
  fits : payload.length < 2 ^ 63

namespace Frame

/-- The second byte of a frame, with the mask bit set, and the extended length. -/
def lengthField (len : Nat) : Str :=
  if len ≤ 125 then [UInt8.ofNat (128 + len)]
  else if len ≤ 65535 then 0xFE :: BigEndian.encode 2 len
  else 0xFF :: BigEndian.encode 8 len

/-- The position of the mask. -/
def maskPos (len : Nat) : Nat := if len ≤ 125 then 2 else if len ≤ 65535 then 4 else 10

/-- The bytes of a frame. -/
def bytes (f : Frame) : Str :=
  0x81 :: (lengthField f.payload.length ++ f.mask ++ WebSocketConn.unmask f.mask f.payload)

/-- The number of bytes of a frame with a payload. -/
def size (payload : Str) : Nat := maskPos payload.length + 4 + payload.length

theorem lengthField_length (len : Nat) : (lengthField len).length + 1 = maskPos len := by
  unfold lengthField maskPos
  split_ifs <;> simp

theorem bytes_length (f : Frame) : f.bytes.length = size f.payload := by
  have h := lengthField_length f.payload.length
  simp only [bytes, size, List.length_cons, List.length_append, f.mask_length,
    WebSocketConn.unmask_length]
  omega

theorem maskPos_bounds (len : Nat) : 2 ≤ maskPos len ∧ maskPos len ≤ 10 := by
  unfold maskPos
  split_ifs <;> omega

/-- The shortest form that can hold a length. -/
def lengthForm (len : Nat) : LengthForm :=
  if len ≤ 125 then .seven else if len ≤ 65535 then .sixteen else .sixtyFour

theorem field_lengthForm (len : Nat) : (lengthForm len).field len = lengthField len := by
  unfold lengthForm lengthField
  split_ifs <;> rfl

theorem le_largest {len : Nat} (h : len < 2 ^ 63) : len ≤ (lengthForm len).largest := by
  unfold lengthForm
  split_ifs <;> simp only [LengthForm.largest] <;> omega

/-- A frame as one of the masked frames. -/
def masked (f : Frame) : MaskedFrame where
  first := 0x81
  form := lengthForm f.payload.length
  mask := f.mask
  payload := f.payload
  mask_length := f.mask_length
  represented := le_largest f.fits
  fits := f.fits

theorem masked_bytes (f : Frame) : f.masked.bytes = f.bytes := by
  show _ :: ((lengthForm f.payload.length).field f.payload.length ++ _ ++ _) = _
  rw [field_lengthForm]
  rfl

/-- A frame is taken off the front of a buffer. -/
theorem parse_bytes (f : Frame) (r : Str) :
    WebSocketConn.parseWebSocketFrame (f.bytes ++ r) = .ok (some (f.payload, r)) := by
  rw [← f.masked_bytes]
  exact f.masked.parse_bytes r

/-- What has arrived of a frame is left in the buffer until the frame is complete. -/
theorem parse_partial (f : Frame) {p : Str} (hp : p <+: f.bytes) (hlt : p.length < f.bytes.length) :
    WebSocketConn.parseWebSocketFrame p = .ok none := by
  rw [← f.masked_bytes] at hp hlt
  exact f.masked.parse_partial hp hlt

/-- The mask stands no earlier than after the shortest form of the length. -/
theorem payloadLength_pos {buf : Str} {second : UInt8} {len pos : Nat}
    (h : WebSocketConn.payloadLength buf second = some (len, pos)) :
    pos ≤ 10 ∧ maskPos len ≤ pos := by
  have hmax := (maskPos_bounds len).2
  unfold WebSocketConn.payloadLength at h
  split at h
  · split at h
    · cases h
    · rename_i hbuf
      cases h
      have hlt := BigEndian.decode_lt ((buf.drop 2).take 2)
      rw [List.length_take, List.length_drop, Nat.min_eq_left (by omega)] at hlt
      refine ⟨by omega, ?_⟩
      unfold maskPos
      split_ifs <;> omega
  · split at h
    · cases h
    · cases h
      exact ⟨le_rfl, hmax⟩
  · rename_i h126 h127
    cases h
    have hlt : (second &&& 0x7f).toNat ≤ 127 := by
      rw [UInt8.toNat_and]
      exact Nat.and_le_right
    have hshort : (second &&& 0x7f).toNat ≤ 125 := by
      have h1 : (second &&& 0x7f).toNat ≠ 126 := h126
      have h2 : (second &&& 0x7f).toNat ≠ 127 := h127
      omega
    refine ⟨by omega, ?_⟩
    unfold maskPos
    rw [if_pos hshort]

/-- A parsed frame takes at least the bytes of the shortest frame with its message. -/
theorem size_of_parse {b m r : Str} (h : WebSocketConn.parseWebSocketFrame b = .ok (some (m, r))) :
    size m + r.length ≤ b.length := by
  unfold WebSocketConn.parseWebSocketFrame at h
  split at h
  · rename_i first second tail
    generalize hb : first :: second :: tail = b at h ⊢
    split at h
    · cases h
    · rename_i payloadLen pos hpay
      split at h
      · cases h
      · split at h
        · cases h
        · split at h
          · cases h
          · rename_i hlong hmax
            obtain ⟨hpos, hmin⟩ := payloadLength_pos hpay
            rw [Nat.mod_eq_of_lt (by omega)] at hlong
            cases h
            have hm : ((b.drop (pos + 4)).take payloadLen).length = payloadLen := by
              simp only [List.length_take, List.length_drop]
              omega
            simp only [size, WebSocketConn.unmask_length, hm, List.length_drop]
            omega
  · cases h

end Frame

end ModularNetServer
