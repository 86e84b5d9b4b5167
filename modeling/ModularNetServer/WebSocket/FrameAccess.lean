import ModularNetServer.WebSocket.WebSocketConn

/-!
# What parsing a frame does with memory

The accesses of a `parseWebSocketFrame` call in their order: the bytes of `m_read_buf` that it reads by
their index, the room that it reserves for the message, and the bytes that it erases from the buffer. The
branches are those of `WebSocketConn.parseWebSocketFrame`; positions and lengths are 64-bit numbers.
-/

namespace ModularNetServer

open Cxx

/-- `data[i]`, `reserve(n)`, `erase(0, count)`. -/
inductive FrameAccess
  | index (i : Nat)
  | reserve (n : Nat)
  | erase (count : Nat)
  deriving DecidableEq

/-- An access stays within a buffer of a size, and a reservation is not larger than it. -/
def FrameAccess.Within (size : Nat) : FrameAccess → Prop
  | index i => i < size
  | reserve n => n ≤ size
  | erase count => count ≤ size

instance (size : Nat) : DecidablePred (FrameAccess.Within size)
  | .index i => inferInstanceAs (Decidable (i < size))
  | .reserve n => inferInstanceAs (Decidable (n ≤ size))
  | .erase count => inferInstanceAs (Decidable (count ≤ size))

namespace WebSocketConn

/-- The bytes of the extended length, if the buffer has them. -/
def lengthAccesses (buf : Str) (second : UInt8) : List FrameAccess :=
  match (second &&& 0x7f).toNat with
  | 126 => if buf.length < 4 then [] else [.index 2, .index 3]
  | 127 => if buf.length < 10 then [] else (List.range' 2 8).map .index
  | _ => []

/-- The loop that decodes a payload at `pos` with the mask before it. -/
def unmaskAccesses (pos payloadLen : Nat) : List FrameAccess :=
  (List.range payloadLen).flatMap (fun i => [.index (pos + i), .index (pos - 4 + i % 4)])

/-- The accesses of `parseWebSocketFrame`. The first two bytes are looked at twice each. -/
def frameAccesses (buf : Str) : List FrameAccess :=
  match buf with
  | _ :: second :: _ =>
    [.index 0, .index 0, .index 1, .index 1] ++ lengthAccesses buf second ++
      match payloadLength buf second with
      | none => []
      | some (payloadLen, pos) =>
        if second &&& 0x80 = 0 then []
        else if buf.length < (pos + 4 + payloadLen) % 2 ^ 64 then []
        else if 2 ^ 63 ≤ payloadLen then [.reserve payloadLen]
        else
          .reserve payloadLen ::
            (unmaskAccesses (pos + 4) payloadLen ++ [.erase ((pos + 4 + payloadLen) % 2 ^ 64)])
  | _ => []

/-- The call makes no access outside the buffer, reserves no more than it holds, and throws nothing. -/
def ParsesSafely (buf : Str) : Prop :=
  (∀ access ∈ frameAccesses buf, access.Within buf.length) ∧ ∀ e, parseWebSocketFrame buf ≠ .error e

/-- The frame is masked and announces a length in 64 bits, and the position behind its payload is past the
    end of the 64-bit numbers, where it wraps around to a number that the buffer reaches. -/
def LengthWraps (buf : Str) : Prop :=
  buf[1]? = some 0xFF ∧ 10 ≤ buf.length ∧ 2 ^ 64 ≤ 14 + BigEndian.decode ((buf.drop 2).take 8) ∧
    14 + BigEndian.decode ((buf.drop 2).take 8) ≤ buf.length + 2 ^ 64

instance (buf : Str) : Decidable (LengthWraps buf) :=
  inferInstanceAs (Decidable (_ ∧ _ ∧ _ ∧ _))

end WebSocketConn

end ModularNetServer
