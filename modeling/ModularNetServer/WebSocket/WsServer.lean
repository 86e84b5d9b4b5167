import ModularNetServer.Library.HttpReader
import ModularNetServer.Library.Codec
import ModularNetServer.WebSocket.WriteBuffer

/-!
# The WebSocket connections of a server

The connection objects in the order in which they are made, the descriptors that the server knows them by, and the
manager of the sessions. Handlers answer on their own connection, and anyone may send to a session. Beside them a
history is kept: which handshakes are completed, which sessions are claimed, what is put into which write buffer, and
what the socket takes of it.
-/

namespace ModularNetServer

open Cxx

/-- The text that `handleHandshake` takes as the client's key. -/
def WebSocketConn.clientKey (request : Str) : Str :=
  match Scan.find (str "Sec-WebSocket-Key: ") request with
  | none => []
  | some keyPos =>
    let keyStart := keyPos + (str "Sec-WebSocket-Key: ").length
    match Scan.find (str "\r\n") (request.drop keyStart) with
    | none => []
    | some keyLength => (request.drop keyStart).take keyLength

/-- What happens on a connection, which has its number among the objects. -/
inductive WsEvent
  | greeted (i : Nat) (request : Str)
  | claimed (i : Nat) (sessionId : Str)
  | answered (i : Nat) (msg : Str)
  | pushed (i : Nat) (sessionId msg : Str)
  | taken (i : Nat) (bytes : Str)
  deriving DecidableEq

namespace WsEvent

/-- The connection that it happens on. -/
def conn : WsEvent → Nat
  | greeted i _ => i
  | claimed i _ => i
  | answered i _ => i
  | pushed i _ _ => i
  | taken i _ => i

/-- The message that is put into the write buffer of a connection. -/
def messageTo (i : Nat) : WsEvent → Option Str
  | answered j msg => if j = i then some msg else none
  | pushed j _ msg => if j = i then some msg else none
  | _ => none

/-- The bytes that the socket takes of a connection. -/
def takenFrom (i : Nat) : WsEvent → Str
  | taken j bytes => if j = i then bytes else []
  | _ => []

/-- The connection that claims a session. -/
def claimant (sessionId : Str) : WsEvent → Option Nat
  | claimed i s => if s = sessionId then some i else none
  | _ => none

end WsEvent

/-- What has happened so far. -/
abbrev WsHistory := List WsEvent

namespace WsHistory

/-- The messages for a connection, in order. -/
def messagesTo (h : WsHistory) (i : Nat) : List Str := h.filterMap (WsEvent.messageTo i)

/-- The bytes that the socket has taken of a connection. -/
def takenFrom (h : WsHistory) (i : Nat) : Str := h.flatMap (WsEvent.takenFrom i)

/-- The connection that has claimed a session last. -/
def lastClaim (h : WsHistory) (sessionId : Str) : Option Nat := (h.filterMap (WsEvent.claimant sessionId)).getLast?

end WsHistory

/-- The connection objects, the numbers of those in `m_users`, and the manager. -/
structure WsServer where
  conns : List WebSocketConn
  users : Table Int Nat
  manager : WebsocketConnManager

namespace WsServer

variable (acc : Str → Str) (handler : WsHandler)

/-- A server that has just been started. -/
def start : WsServer := ⟨[], Table.empty, WebsocketConnManager.empty⟩

/-- `getConn`: no `WebSocketConn` counts as closed. -/
def getConn (s : WsServer) (fd : Int) : Option WebSocketConn := (s.users fd).bind (s.conns[·]?)

/-- What happens to the server, in any order and on any thread. `closeConnection` is an `erase` and a `closeConn`, and
    the destructor of an object is one more `closeConn`. -/
inductive Action
  | accept (fd : Nat)
  | read (i : Nat) (edgeTriggered : Bool) (calls : List WebSocketConn.Received)
  | process (i : Nat)
  | sendToSession (sessionId msg : Str)
  | write (i : Nat) (results : List SocketResult)
  | init (i : Nat) (fd : Int)
  | erase (fd : Int)
  | closeConn (i : Nat)

/-- Something is done with a connection that leaves the rest alone. -/
def update (s : WsServer) (i : Nat) (f : WebSocketConn → WebSocketConn) : Option WsServer :=
  (s.conns[i]?).map fun c => { s with conns := s.conns.set i (f c) }

/-- A step. An exception that escapes from `process` ends the server. -/
def step (s : WsServer) : Action → Option WsServer
  | .accept fd =>
    some { s with
      conns := s.conns ++ [WebSocketConn.make.init fd]
      users := s.users.insert fd s.conns.length }
  | .read i edgeTriggered calls => s.update i fun c => (c.read edgeTriggered calls).2
  | .process i =>
    match s.conns[i]? with
    | none => none
    | some c =>
      match c.process acc handler s.manager with
      | .error _ => none
      | .ok r => some { s with conns := s.conns.set i r.conn, manager := r.manager }
  | .sendToSession sessionId msg =>
    match s.manager.sendToSession s.getConn sessionId msg, (s.manager.sessionToFd sessionId).bind s.users with
    | some (_, c), some i => some { s with conns := s.conns.set i c }
    | _, _ => some s
  | .write i results => s.update i fun c => (c.writeOver results).2.2
  | .init i fd => s.update i fun c => c.init fd
  | .erase fd => some { s with users := s.users.erase fd }
  | .closeConn i =>
    match s.conns[i]? with
    | none => none
    | some c =>
      let (_, manager, c) := c.closeConn s.manager
      some { s with conns := s.conns.set i c, manager := manager }

/-- What a `process` call does: a handshake is completed and may name a session, or a handler answers. -/
def processEvents (m : WebsocketConnManager) (i : Nat) (c : WebSocketConn) : List WsEvent :=
  match c.process acc handler m with
  | .error _ => []
  | .ok r =>
    match r.dispatched with
    | some d => (handler d).map (.answered i)
    | none =>
      if r.result then
        .greeted i c.readBuf ::
          (if WebSocketConn.extractSessionIdFromRequest c.readBuf = [] then []
            else [.claimed i (WebSocketConn.extractSessionIdFromRequest c.readBuf)])
      else []

/-- What a step does. -/
def events (s : WsServer) : Action → List WsEvent
  | .process i =>
    match s.conns[i]? with
    | none => []
    | some c => processEvents acc handler s.manager i c
  | .sendToSession sessionId msg =>
    match (s.manager.sessionToFd sessionId).bind s.users with
    | none => []
    | some i => if (s.conns[i]?).isSome then [.pushed i sessionId msg] else []
  | .write i results =>
    match s.conns[i]? with
    | none => []
    | some c => [.taken i ((c.writeOver results).2.1.map fun pos => c.writeBuf.getD pos 0)]
  | _ => []

/-- The history goes on. -/
def record (h : WsHistory) (s : WsServer) (a : Action) : WsHistory := h ++ s.events acc handler a

/-- The kernel gives a number to one open descriptor at a time, and no closed connection is initialised again. -/
def Orderly (s : WsServer) : Action → Prop
  | .accept fd => ∀ c ∈ s.conns, c.sockfd ≠ fd
  | .init i fd => ∀ c ∈ s.conns[i]?, c.isClosed = false ∧ fd = c.sockfd
  | _ => True

instance (s : WsServer) : (a : Action) → Decidable (s.Orderly a)
  | .accept _ => inferInstanceAs (Decidable (∀ _ ∈ _, _))
  | .init _ _ => inferInstanceAs (Decidable (∀ _ ∈ _, _))
  | .read _ _ _ => isTrue trivial
  | .process _ => isTrue trivial
  | .sendToSession _ _ => isTrue trivial
  | .write _ _ => isTrue trivial
  | .erase _ => isTrue trivial
  | .closeConn _ => isTrue trivial

/-- The socket takes a write buffer whole or nothing of it, and no message is longer than a string can be. -/
def TakesWhole (s : WsServer) : WsEvent → Prop
  | .taken i bytes => ∀ c ∈ s.conns[i]?, bytes = [] ∨ bytes.length = c.writeBuf.length
  | .answered _ msg => msg.length < 2 ^ 63
  | .pushed _ _ msg => msg.length < 2 ^ 63
  | _ => True

instance (s : WsServer) : (e : WsEvent) → Decidable (s.TakesWhole e)
  | .taken _ _ => inferInstanceAs (Decidable (∀ _ ∈ _, _))
  | .answered _ _ => inferInstanceAs (Decidable (_ < _))
  | .pushed _ _ _ => inferInstanceAs (Decidable (_ < _))
  | .greeted _ _ => isTrue trivial
  | .claimed _ _ => isTrue trivial

/-- Nothing of a write buffer is sent twice in a step. -/
def DeliversWhole (s : WsServer) (a : Action) : Prop :=
  s.Orderly a ∧ ∀ e ∈ s.events acc handler a, s.TakesWhole e

instance (s : WsServer) (a : Action) : Decidable (DeliversWhole acc handler s a) :=
  inferInstanceAs (Decidable (_ ∧ _))

/-- A response with the status 101 has no body. -/
def switchesProtocols : HttpReader.BodyRule := fun code _ => code != str "101"

/-- A client that reads what the socket has taken of a connection finds the answer to its handshake, and then the
    messages for the connection, in order: all of them, where none is left in the write buffer. -/
def Understands (h : WsHistory) (i : Nat) (c : WebSocketConn) : Prop :=
  (h.takenFrom i = [] ∧ (c.writeBuf = [] → h.messagesTo i = [])) ∨
    ∃ request answer rest items, WsEvent.greeted i request ∈ h ∧
      HttpReader.read switchesProtocols (h.takenFrom i) = some (answer, rest) ∧ answer.code = str "101" ∧
      HttpReader.valuesOf (str "Sec-WebSocket-Accept") answer.fields = [acc (WebSocketConn.clientKey request)] ∧
      Codec.ReadsAs readTextFrame rest items ∧ items <+: h.messagesTo i ∧
      (c.writeBuf = [] → items = h.messagesTo i)

/-- What is sent to a session is put into the write buffer of the connection that has claimed it last. -/
def PushesToClaimant (h : WsHistory) : Prop :=
  ∀ (n i : Nat) (sessionId msg : Str), h[n]? = some (.pushed i sessionId msg) →
    WsHistory.lastClaim (h.take n) sessionId = some i

end WsServer

end ModularNetServer
