import ModularNetServer.Library.Transition
import ModularNetServer.WebSocket.TextFrames

/-!
# Sending the write buffer

`WebSocketConn::write` over the answers of the socket, and what becomes of `m_write_buf` while frames are
appended and `write` is called. A call is given the answers that its `send` calls get, in order; when they
run out the socket reports `EAGAIN`. What the socket takes is recorded by position, so that a byte sent
twice is told apart from two equal bytes.
-/

namespace ModularNetServer

open Cxx

namespace WebSocketConn

/-- The number of bytes that a `send` takes of `requested` many; the kernel transfers at most 0x7ffff000
    bytes in one call. -/
def sendTaken (n requested : Nat) : Nat := min (SocketResult.taken n requested) 0x7ffff000

/-- The loop of `write` over a buffer of `len` bytes, from `write_buf_total_sent` on: the status that
    `write` returns, and the positions of the bytes taken. The total is an `int`; if it becomes negative it
    is compared as a `size_t` that is larger than every length. -/
def sendLoop (len : Nat) (total : Int) : List SocketResult → WriteStatus × List Nat
  | [] => if 0 ≤ total ∧ total < len then (.again, []) else (.ok, [])
  | r :: rs =>
    if 0 ≤ total ∧ total < len then
      match r with
      | .again => (.again, [])
      | .fails => (.error, [])
      | .accepts n =>
        let sent := sendTaken n (len - total.toNat)
        let (status, positions) := sendLoop len (toInt32 (total + sent)) rs
        (status, List.range' total.toNat sent ++ positions)
    else (.ok, [])

/-- `write` over the answers of the socket, with the positions in `m_write_buf` of the bytes taken. -/
def writeOver (c : WebSocketConn) (rs : List SocketResult) : WriteStatus × List Nat × WebSocketConn :=
  if c.sockfd = -1 ∨ c.isClosed = true then (.error, [], c)
  else
    let (status, positions) := sendLoop c.writeBuf.length 0 rs
    (status, positions, if status = .ok then { c with writeBuf := [] } else c)

/-- The first answer of a call lets the socket take bytes. -/
def Accepts : List SocketResult → Prop
  | .accepts _ :: _ => True
  | _ => False

/-- The socket takes at least a byte in a call. -/
def TakesByte (c : WebSocketConn) (rs : List SocketResult) : Prop :=
  c.sockfd ≠ -1 ∧ c.isClosed = false ∧ c.writeBuf ≠ [] ∧ Accepts rs

end WebSocketConn

/-- A connection with all bytes that have been in its write buffer, the number of them that have been
    cleared, the positions among them of the bytes that the socket took, and these bytes; and whether some
    call of `write` had the socket take a part of the buffer and not all of it. -/
structure WsOutput where
  conn : WebSocketConn
  appended : Str
  cleared : Nat
  positions : List Nat
  bytes : Str
  interrupted : Bool

namespace WsOutput

/-- A connection before its first `write`. -/
def start (c : WebSocketConn) : WsOutput := ⟨c, c.writeBuf, 0, [], [], false⟩

/-- A frame is appended, or `write` is called. -/
inductive Action
  | sendTextFrame (msg : Str)
  | write (results : List SocketResult)

/-- What an action does. -/
def step (s : WsOutput) : Action → Option WsOutput
  | .sendTextFrame msg =>
    some { s with
      conn := s.conn.sendTextFrame msg
      appended := s.appended ++ WebSocketConn.textFrame msg }
  | .write results =>
    let buf := s.conn.writeBuf
    let (status, positions, conn) := s.conn.writeOver results
    some {
      conn := conn
      appended := s.appended
      cleared := if status = .ok then s.cleared + buf.length else s.cleared
      positions := s.positions ++ positions.map (s.cleared + ·)
      bytes := s.bytes ++ positions.map (fun i => buf.getD i 0)
      interrupted := s.interrupted || (0 < positions.length && positions.length < buf.length) }

/-- The bytes that the socket took are a prefix of all bytes appended: the first of them, the second, and
    so on, none left out and none taken twice. -/
def Delivers (s : WsOutput) : Prop :=
  s.positions = List.range s.positions.length ∧ s.bytes <+: s.appended

/-- No call in which the socket takes a byte comes after one in which it took a part of the buffer only. -/
def Uninterrupted (s : WsOutput) : Action → Prop
  | .sendTextFrame _ => True
  | .write results => s.conn.TakesByte results → s.interrupted = false

end WsOutput

end ModularNetServer
