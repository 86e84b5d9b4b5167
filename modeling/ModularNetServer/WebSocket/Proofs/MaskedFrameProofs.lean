import ModularNetServer.WebSocket.WebSocketConn

/-!
# Masked frames

Frames with any first byte, any mask and any form of the length that can hold it. `parseWebSocketFrame`
takes such a frame off the front of a buffer, and leaves a buffer with less than the frame as it is.
-/

namespace ModularNetServer

open Cxx

namespace WebSocketConn

@[simp] theorem unmask_length (key payload : Str) : (unmask key payload).length = payload.length := by
  simp [unmask]

/-- Decoding and encoding are the same. -/
@[simp] theorem unmask_unmask (key payload : Str) : unmask key (unmask key payload) = payload := by
  unfold unmask
  rw [List.mapIdx_mapIdx]
  apply List.ext_getElem
  · simp
  · intro i h1 h2
    rw [List.getElem_mapIdx, Function.comp_apply, UInt8.xor_assoc, UInt8.xor_self, UInt8.xor_zero]

end WebSocketConn

/-- How the length of a payload is written. -/
inductive LengthForm
  | seven
  | sixteen
  | sixtyFour
  deriving DecidableEq

namespace LengthForm

/-- The largest length that can be written in a form. -/
def largest : LengthForm → Nat
  | seven => 125
  | sixteen => 2 ^ 16 - 1
  | sixtyFour => 2 ^ 64 - 1

/-- The second byte of a frame, with the mask bit set, and the extended length. -/
def field : LengthForm → Nat → Str
  | seven, len => [UInt8.ofNat (128 + len)]
  | sixteen, len => 0xFE :: BigEndian.encode 2 len
  | sixtyFour, len => 0xFF :: BigEndian.encode 8 len

/-- The position of the mask. -/
def maskPos : LengthForm → Nat
  | seven => 2
  | sixteen => 4
  | sixtyFour => 10

theorem field_length (form : LengthForm) (len : Nat) : (form.field len).length + 1 = form.maskPos := by
  cases form <;> simp [field, maskPos]

theorem maskPos_bounds (form : LengthForm) : 2 ≤ form.maskPos ∧ form.maskPos ≤ 10 := by
  cases form <;> simp [maskPos]

end LengthForm

/-- A complete masked frame. A length has 63 bits. -/
structure MaskedFrame where
  first : UInt8
  form : LengthForm
  mask : Str
  payload : Str
  mask_length : mask.length = 4
  represented : payload.length ≤ form.largest
  fits : payload.length < 2 ^ 63

namespace MaskedFrame

/-- The bytes of a frame. -/
def bytes (f : MaskedFrame) : Str :=
  f.first :: (f.form.field f.payload.length ++ f.mask ++ WebSocketConn.unmask f.mask f.payload)

theorem bytes_eq (f : MaskedFrame) : f.bytes = f.first :: f.form.field f.payload.length ++
    (f.mask ++ WebSocketConn.unmask f.mask f.payload) := by
  simp [bytes]

theorem bytes_length (f : MaskedFrame) : f.bytes.length = f.form.maskPos + 4 + f.payload.length := by
  have h := f.form.field_length f.payload.length
  simp only [bytes, List.length_cons, List.length_append, f.mask_length, WebSocketConn.unmask_length]
  omega

/-- The bits of the second byte of a short frame. -/
theorem second_short (len : Fin 126) :
    (UInt8.ofNat (128 + len) &&& 0x7f).toNat = len ∧ UInt8.ofNat (128 + len) &&& 0x80 ≠ 0 := by
  revert len
  decide

/-- Two texts agree where they continue to the same text. -/
theorem take_eq_of_append {a b r t : Str} (h : a ++ t = b ++ r) (hle : b.length ≤ a.length) :
    a.take b.length = b := by
  have htake := congrArg (List.take b.length) h
  rwa [List.take_append_of_le_length hle, List.take_left] at htake

/-- The length is read from what has arrived of a frame once it holds it. -/
theorem payloadLength_partial (f : MaskedFrame) {buf r : Str} (h : buf <+: f.bytes ++ r)
    (h2 : 2 ≤ buf.length) :
    ∃ second tail, buf = f.first :: second :: tail ∧ second &&& 0x80 ≠ 0 ∧
      WebSocketConn.payloadLength buf second =
        if buf.length < f.form.maskPos then none else some (f.payload.length, f.form.maskPos) := by
  obtain ⟨first, form, mask, payload, hmask, hrep, hfits⟩ := f
  obtain ⟨t, ht⟩ := h
  obtain ⟨a, second, tail, rfl⟩ : ∃ a b tail, buf = a :: b :: tail := by
    match buf, h2 with
    | a :: b :: tail, _ => exact ⟨a, b, tail, rfl⟩
  simp only [bytes, List.cons_append, List.cons.injEq] at ht
  obtain ⟨rfl, ht⟩ := ht
  refine ⟨second, tail, rfl, ?_⟩
  cases form with
  | seven =>
    -- the second byte is the length
    simp only [LengthForm.field, List.cons_append, List.nil_append, List.cons.injEq] at ht
    simp only [LengthForm.largest] at hrep
    obtain ⟨rfl, -⟩ := ht
    obtain ⟨hlen, hbit⟩ := second_short ⟨payload.length, by omega⟩
    refine ⟨hbit, ?_⟩
    rw [if_neg (by simp only [LengthForm.maskPos]; omega)]
    unfold WebSocketConn.payloadLength
    rw [hlen]
    split
    · simp only at *
      omega
    · simp only at *
      omega
    · rfl
  | sixteen =>
    simp only [LengthForm.field, List.cons_append, List.cons.injEq] at ht
    simp only [LengthForm.largest] at hrep
    obtain ⟨rfl, ht⟩ := ht
    refine ⟨by decide, ?_⟩
    show (if (a :: 0xFE :: tail).length < 4 then none else some (BigEndian.decode (tail.take 2), 4)) =
      if (a :: 0xFE :: tail).length < 4 then none else some (payload.length, 4)
    split_ifs with h4
    · rfl
    · simp only [List.length_cons] at h4
      have htail := take_eq_of_append (by simpa only [List.append_assoc] using ht) (by simp; omega)
      rw [BigEndian.encode_length] at htail
      rw [htail, BigEndian.decode_encode_of_lt (by omega)]
  | sixtyFour =>
    simp only [LengthForm.field, List.cons_append, List.cons.injEq] at ht
    simp only [LengthForm.largest] at hrep
    obtain ⟨rfl, ht⟩ := ht
    refine ⟨by decide, ?_⟩
    show (if (a :: 0xFF :: tail).length < 10 then none else some (BigEndian.decode (tail.take 8), 10)) =
      if (a :: 0xFF :: tail).length < 10 then none else some (payload.length, 10)
    split_ifs with h10
    · rfl
    · simp only [List.length_cons] at h10
      have htail := take_eq_of_append (by simpa only [List.append_assoc] using ht) (by simp; omega)
      rw [BigEndian.encode_length] at htail
      rw [htail, BigEndian.decode_encode_of_lt (by omega)]

/-- A frame is taken off the front of a buffer. -/
theorem parse_bytes (f : MaskedFrame) (r : Str) :
    WebSocketConn.parseWebSocketFrame (f.bytes ++ r) = .ok (some (f.payload, r)) := by
  have hlen := f.bytes_length
  have hfits := f.fits
  obtain ⟨hpos, hpos'⟩ := f.form.maskPos_bounds
  obtain ⟨second, tail, hbuf, hmask, hpay⟩ := f.payloadLength_partial (List.prefix_refl (f.bytes ++ r))
    (by rw [List.length_append]; omega)
  rw [List.length_append, if_neg (by omega)] at hpay
  have hhead : (f.first :: f.form.field f.payload.length).length = f.form.maskPos :=
    f.form.field_length _
  have hdrop : (f.bytes ++ r).drop f.form.maskPos =
      f.mask ++ (WebSocketConn.unmask f.mask f.payload ++ r) := by
    rw [bytes_eq, ← hhead, List.append_assoc, List.drop_left, List.append_assoc]
  have hkey : ((f.bytes ++ r).drop f.form.maskPos).take 4 = f.mask := by
    rw [hdrop, ← f.mask_length, List.take_left]
  have hdata : (f.bytes ++ r).drop (f.form.maskPos + 4) =
      WebSocketConn.unmask f.mask f.payload ++ r := by
    rw [← List.drop_drop, hdrop, ← f.mask_length, List.drop_left]
  have henc : ((f.bytes ++ r).drop (f.form.maskPos + 4)).take f.payload.length =
      WebSocketConn.unmask f.mask f.payload := by
    rw [hdata, List.take_append_of_le_length (by simp), List.take_of_length_le (by simp)]
  have hrest : (f.bytes ++ r).drop (f.form.maskPos + 4 + f.payload.length) = r := by
    rw [← List.drop_drop, hdata]
    exact List.drop_left' (WebSocketConn.unmask_length _ _)
  unfold WebSocketConn.parseWebSocketFrame
  rw [hbuf] at hpay hkey henc hrest ⊢
  simp only [hpay]
  rw [if_neg hmask, if_neg, if_neg (by omega), hkey, henc, hrest, WebSocketConn.unmask_unmask]
  rw [← hbuf, List.length_append, Nat.mod_eq_of_lt (by omega)]
  omega

/-- What has arrived of a frame is left in the buffer until the frame is complete. -/
theorem parse_partial (f : MaskedFrame) {p : Str} (hp : p <+: f.bytes)
    (hlt : p.length < f.bytes.length) : WebSocketConn.parseWebSocketFrame p = .ok none := by
  have hlen := f.bytes_length
  have hfits := f.fits
  obtain ⟨hpos, hpos'⟩ := f.form.maskPos_bounds
  by_cases h2 : 2 ≤ p.length
  · obtain ⟨second, tail, hbuf, hmask, hpay⟩ :=
      f.payloadLength_partial (hp.trans (List.prefix_append f.bytes [])) h2
    unfold WebSocketConn.parseWebSocketFrame
    rw [hbuf] at hpay hlt ⊢
    by_cases hshort : (f.first :: second :: tail).length < f.form.maskPos
    · rw [if_pos hshort] at hpay
      simp only [hpay]
    · rw [if_neg hshort] at hpay
      simp only [hpay]
      rw [if_neg hmask, if_pos]
      rw [Nat.mod_eq_of_lt (by omega)]
      omega
  · unfold WebSocketConn.parseWebSocketFrame
    split
    · simp only [List.length_cons] at h2
      omega
    · rfl

end MaskedFrame

/-! ## The call -/

/-- The call `parseWebSocketFrame(message)`: its result, and `message` and the connection after it. -/
def WebSocketConn.parseFrameCall (c : WebSocketConn) (message : Str) :
    Except Exception (Bool × Str × WebSocketConn) :=
  match parseWebSocketFrame c.readBuf with
  | .error e => .error e
  | .ok none => .ok (false, message, c)
  | .ok (some (decoded, rest)) => .ok (true, decoded, { c with readBuf := rest })

/-- A masked frame in any form is decoded and taken off the buffer, and before its last byte has arrived
    the call changes nothing. -/
theorem MaskedFrame.decoded (f : MaskedFrame) (c : WebSocketConn) (message : Str) :
    (∀ following, c.readBuf = f.bytes ++ following →
      c.parseFrameCall message = .ok (true, f.payload, { c with readBuf := following })) ∧
    (c.readBuf <+: f.bytes → c.readBuf ≠ f.bytes → c.parseFrameCall message = .ok (false, message, c)) := by
  refine ⟨?_, ?_⟩
  · intro following hbuf
    unfold WebSocketConn.parseFrameCall
    rw [hbuf, f.parse_bytes]
  · intro hp hne
    have hlt : c.readBuf.length < f.bytes.length := by
      rcases Nat.lt_or_ge c.readBuf.length f.bytes.length with hlt | hge
      · exact hlt
      · exact absurd (hp.eq_of_length_le hge) hne
    unfold WebSocketConn.parseFrameCall
    rw [f.parse_partial hp hlt]

/-- Two bytes in a pong frame whose length is written in 64 bits. -/
def pongFrame : MaskedFrame where
  first := 0x8A
  form := .sixtyFour
  mask := [1, 2, 3, 4]
  payload := str "hi"
  mask_length := rfl
  represented := by decide
  fits := by decide

/-- It is decoded in front of a further byte, and its first eleven bytes are left alone. -/
theorem MaskedFrame.decoded_pongFrame :
    (WebSocketConn.make.receive (pongFrame.bytes ++ [0x81])).parseFrameCall [] =
        .ok (true, str "hi", WebSocketConn.make.receive [0x81]) ∧
      (WebSocketConn.make.receive (pongFrame.bytes.take 11)).parseFrameCall (str "old") =
        .ok (false, str "old", WebSocketConn.make.receive (pongFrame.bytes.take 11)) :=
  ⟨(MaskedFrame.decoded pongFrame _ _).1 [0x81] rfl,
    (MaskedFrame.decoded pongFrame _ _).2 (List.take_prefix 11 _) (by decide)⟩

end ModularNetServer
