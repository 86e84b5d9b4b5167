import ModularNetServer.Library.Codec
import ModularNetServer.WebSocket.TextFrames
import ModularNetServer.WebSocket.Proofs.FrameProofs

/-!
# The frames that are sent

`sendTextFrame` and the reader of the frame format agree on every length below 2^63, so that a list of
messages is read back from the write buffer as it was sent. A frame that is masked as a client masks it
is a masked frame in the shortest form, which `parseWebSocketFrame` takes.
-/

namespace ModularNetServer

open Cxx

namespace WebSocketConn

theorem sendTextFrame_writeBuf (c : WebSocketConn) (msg : Str) :
    (c.sendTextFrame msg).writeBuf = c.writeBuf ++ textFrame msg := rfl

/-- Messages that are sent in turn add their frames to the write buffer in this order. -/
theorem foldl_sendTextFrame_writeBuf (c : WebSocketConn) (msgs : List Str) :
    (msgs.foldl sendTextFrame c).writeBuf = c.writeBuf ++ msgs.flatMap textFrame := by
  induction msgs generalizing c with
  | nil => simp
  | cons msg msgs ih =>
    rw [List.foldl_cons, ih, sendTextFrame_writeBuf, List.flatMap_cons, List.append_assoc]

/-! ## Reading -/

theorem readLength_two (rest : Str) : readLength (126 :: rest) = readExtended 2 126 rest := by
  simp [readLength]

theorem readLength_eight (rest : Str) : readLength (127 :: rest) = readExtended 8 65536 rest := by
  simp [readLength]

theorem readExtended_encode {count least len : Nat} (hleast : least ≤ len) (hfits : len < 256 ^ count)
    (hmax : len < 2 ^ 63) (rest : Str) :
    readExtended count least (BigEndian.encode count len ++ rest) = some (len, rest) := by
  have htake : (BigEndian.encode count len ++ rest).take count = BigEndian.encode count len :=
    List.take_left' (BigEndian.encode_length count len)
  have hdrop : (BigEndian.encode count len ++ rest).drop count = rest :=
    List.drop_left' (BigEndian.encode_length count len)
  have hcount : count ≤ (BigEndian.encode count len ++ rest).length := by simp
  unfold readExtended
  rw [htake, hdrop, BigEndian.decode_encode_of_lt hfits]
  rw [if_pos ⟨hcount, hleast, hmax⟩]

/-- The length is read from what `sendTextFrame` writes of it. -/
theorem readLength_lengthHeader {len : Nat} (h : len < 2 ^ 63) (rest : Str) :
    readLength (lengthHeader len ++ rest) = some (len, rest) := by
  unfold lengthHeader
  split_ifs with hshort hmiddle
  · have hb : (UInt8.ofNat len).toNat = len := UInt8.toNat_ofNat_of_lt' (by simp [UInt8.size]; omega)
    simp only [List.singleton_append, readLength, hb]
    rw [if_pos (by omega)]
  · rw [List.cons_append, readLength_two]
    exact readExtended_encode (by omega) (by omega) h rest
  · rw [List.cons_append, readLength_eight]
    exact readExtended_encode (by omega) (by omega) h rest

theorem readTextFrame_textFrame {msg : Str} (h : msg.length < 2 ^ 63) (rest : Str) :
    readTextFrame (textFrame msg ++ rest) = some (msg, rest) := by
  have hlen := readLength_lengthHeader h (msg ++ rest)
  simp only [textFrame, readTextFrame, List.cons_append, if_true, List.append_assoc, hlen]
  rw [if_pos (by simp), List.take_left, List.drop_left]

/-! ## Masking -/

/-- The mask bit in the second byte of a short frame. -/
theorem or_mask_short (len : Fin 126) :
    UInt8.ofNat len ||| 0x80 = UInt8.ofNat (128 + len) ∧ payloadPos (UInt8.ofNat len) = 2 := by
  revert len
  decide

/-- Masking a frame that was sent gives the frame that a client sends. -/
theorem maskFrame_textFrame {key msg : Str} (hkey : key.length = 4) (h : msg.length < 2 ^ 63) :
    maskFrame key (textFrame msg) = Frame.bytes ⟨msg, key, hkey, h⟩ := by
  have hextended : ∀ count : Nat,
      (BigEndian.encode count msg.length ++ msg).take count = BigEndian.encode count msg.length ∧
        (BigEndian.encode count msg.length ++ msg).drop count = msg := fun count =>
    ⟨List.take_left' (BigEndian.encode_length count _), List.drop_left' (BigEndian.encode_length count _)⟩
  unfold textFrame lengthHeader Frame.bytes Frame.lengthField
  split_ifs with hshort hmiddle
  · obtain ⟨hor, hpos⟩ := or_mask_short ⟨msg.length, by omega⟩
    simp only [List.singleton_append, maskFrame, hor, hpos]
    simp
  · obtain ⟨htake, hdrop⟩ := hextended 2
    show _ :: (126 ||| 0x80) :: ((BigEndian.encode 2 msg.length ++ msg).take 2 ++ key ++
      unmask key ((BigEndian.encode 2 msg.length ++ msg).drop 2)) = _
    rw [htake, hdrop]
    rfl
  · obtain ⟨htake, hdrop⟩ := hextended 8
    show _ :: (127 ||| 0x80) :: ((BigEndian.encode 8 msg.length ++ msg).take 8 ++ key ++
      unmask key ((BigEndian.encode 8 msg.length ++ msg).drop 8)) = _
    rw [htake, hdrop]
    rfl

/-- Messages that are sent on an empty write buffer are read back from it, in one way only, and the frame
    that a call appends is taken by `parseWebSocketFrame` once it is masked, whatever follows it. -/
theorem sent_frames_decode (c : WebSocketConn) (hempty : c.writeBuf = []) (msgs : List Str)
    (hlen : ∀ msg ∈ msgs, msg.length < 2 ^ 62) :
    (∀ items, Codec.ReadsAs readTextFrame (msgs.foldl sendTextFrame c).writeBuf items ↔ items = msgs) ∧
      ∀ msg ∈ msgs, ∀ (before : WebSocketConn) (frame : Str),
        (before.sendTextFrame msg).writeBuf = before.writeBuf ++ frame →
          ∀ key : Str, key.length = 4 → ∀ following,
            parseWebSocketFrame (maskFrame key frame ++ following) = .ok (some (msg, following)) := by
  have hfits : ∀ msg ∈ msgs, msg.length < 2 ^ 63 := by
    intro msg hmsg
    have := hlen msg hmsg
    omega
  constructor
  · intro items
    rw [foldl_sendTextFrame_writeBuf, hempty, List.nil_append]
    exact Codec.readsAs_flatMap_iff rfl (fun msg hmsg => readTextFrame_textFrame (hfits msg hmsg))
  · intro msg hmsg before frame hframe key hkey following
    obtain rfl : textFrame msg = frame := List.append_cancel_left hframe
    rw [maskFrame_textFrame hkey (hfits msg hmsg)]
    exact Frame.parse_bytes _ following

/-- Two messages, the empty one first. -/
theorem sent_frames_decode_two :
    (∀ items, Codec.ReadsAs readTextFrame
        ([[], str "hi"].foldl sendTextFrame WebSocketConn.make).writeBuf items ↔ items = [[], str "hi"]) ∧
      ∀ msg ∈ [[], str "hi"], ∀ (before : WebSocketConn) (frame : Str),
        (before.sendTextFrame msg).writeBuf = before.writeBuf ++ frame →
          ∀ key : Str, key.length = 4 → ∀ following,
            parseWebSocketFrame (maskFrame key frame ++ following) = .ok (some (msg, following)) :=
  sent_frames_decode WebSocketConn.make rfl [[], str "hi"] (by decide)

end WebSocketConn

end ModularNetServer
