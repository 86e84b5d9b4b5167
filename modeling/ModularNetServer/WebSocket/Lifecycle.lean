import ModularNetServer.WebSocket.WebSocketConn

/-!
# The life of a connection object

The calls of `init` and `closeConn` on one `WebSocketConn` between its construction and its destructor,
which calls `closeConn` once more, and the law that they are meant to obey.
-/

namespace ModularNetServer

open Cxx

/-- `isClosed()`, which does not look at `m_is_closed`. -/
def WebSocketConn.isClosedCall (_ : WebSocketConn) : Bool := false

/-- A call on a connection object. -/
inductive LifeCall
  | init (fd : Nat)
  | closeConn
  deriving DecidableEq

/-- A connection object and the manager that it is entered in. -/
structure WsLife where
  manager : WebsocketConnManager
  conn : WebSocketConn

namespace WsLife

/-- An object that has just been constructed. -/
def start (m : WebsocketConnManager) : WsLife := ⟨m, WebSocketConn.make⟩

/-- A `closeConn` call, or the destructor, with the number that is closed. -/
def closeConn (s : WsLife) : Option Int × WsLife :=
  let (closed, manager, conn) := s.conn.closeConn s.manager
  (closed, ⟨manager, conn⟩)

/-- What a call leaves behind. -/
def apply (s : WsLife) : LifeCall → WsLife
  | .init fd => { s with conn := s.conn.init fd }
  | .closeConn => s.closeConn.2

/-- The object after a sequence of calls. -/
def after (m : WebsocketConnManager) (calls : List LifeCall) : WsLife := calls.foldl apply (start m)

/-- A closing call is made after some of the calls: the next one of them, or the destructor. -/
def ClosingCallAfter (calls pre : List LifeCall) : Prop := pre ++ [.closeConn] <+: calls ∨ pre = calls

/-- The law: the first closing call after an `init` closes the socket and removes its number from the
    manager, a later one does nothing, and `isClosed` says yes from a `closeConn` to the next `init`. -/
structure Lawful (m : WebsocketConnManager) (calls : List LifeCall) : Prop where
  first_closes : ∀ pre (fd : Nat), ClosingCallAfter calls (pre ++ [.init fd]) →
    (after m (pre ++ [.init fd])).closeConn.1 = some (fd : Int) ∧
      (after m (pre ++ [.init fd])).closeConn.2.manager = (after m (pre ++ [.init fd])).manager.removeFd fd
  later_do_nothing : ∀ pre, ClosingCallAfter calls (pre ++ [.closeConn]) →
    (after m (pre ++ [.closeConn])).closeConn.1 = none ∧
      (after m (pre ++ [.closeConn])).closeConn.2.manager = (after m (pre ++ [.closeConn])).manager
  isClosed_iff : ∀ pre call, pre ++ [call] <+: calls →
    ((after m (pre ++ [call])).conn.isClosedCall = true ↔ call = .closeConn)

end WsLife

end ModularNetServer
