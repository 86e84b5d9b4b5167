import ModularNetServer.WebSocket.WebSocketConn

/-!
# Text frames on the wire

The frames that `sendTextFrame` writes, how a client reads them, and how it masks a frame. `readTextFrame`
is written from the frame format, not from the code: it takes an unmasked text frame with the FIN bit
set off the front of a stream, and refuses one whose length is not written in its shortest form.
-/

namespace ModularNetServer

open Cxx

namespace WebSocketConn

/-- The second byte and the extended length that `sendTextFrame` writes. -/
def lengthHeader (len : Nat) : Str :=
  if len ≤ 125 then [UInt8.ofNat len]
  else if len ≤ 65535 then 126 :: BigEndian.encode 2 len
  else 127 :: BigEndian.encode 8 len

/-- The frame of a message. -/
def textFrame (msg : Str) : Str := 0x81 :: (lengthHeader msg.length ++ msg)

end WebSocketConn

/-- An extended length of `count` bytes, which no shorter form can hold, with what follows it. -/
def readExtended (count least : Nat) (rest : Str) : Option (Nat × Str) :=
  let len := BigEndian.decode (rest.take count)
  if count ≤ rest.length ∧ least ≤ len ∧ len < 2 ^ 63 then some (len, rest.drop count) else none

/-- The length of an unmasked payload, from the bytes after the first of a frame, with what follows it. -/
def readLength : Str → Option (Nat × Str)
  | [] => none
  | b :: rest =>
    if b.toNat < 126 then some (b.toNat, rest)
    else if b = 126 then readExtended 2 126 rest
    else if b = 127 then readExtended 8 65536 rest
    else none

/-- The message of the text frame at the start of a stream, with what follows the frame. -/
def readTextFrame : Str → Option (Str × Str)
  | [] => none
  | b :: rest =>
    if b = 0x81 then
      match readLength rest with
      | none => none
      | some (len, rest) => if len ≤ rest.length then some (rest.take len, rest.drop len) else none
    else none

/-- The position of the payload in an unmasked frame, by its second byte. -/
def payloadPos (second : UInt8) : Nat := if second = 126 then 4 else if second = 127 then 10 else 2

/-- A frame with the mask bit set, a key before its payload, and the payload masked with the key. -/
def maskFrame (key : Str) : Str → Str
  | first :: second :: rest =>
    let extended := payloadPos second - 2
    first :: (second ||| 0x80) ::
      (rest.take extended ++ key ++ WebSocketConn.unmask key (rest.drop extended))
  | short => short

end ModularNetServer
