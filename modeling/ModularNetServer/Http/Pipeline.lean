import ModularNetServer.Library.Transition
import ModularNetServer.Http.HttpConn
import ModularNetServer.Http.Proofs.RoundTripProofs

/-!
# Requests on one connection

The tasks of `NetServer::handleReadEvent` and `NetServer::handleWriteEvent` for one `HttpConn`, over
exchanges: a read event, whose `recv` calls deliver whole requests, and the write events after it, until
a response is complete.
-/

namespace ModularNetServer

open Cxx

namespace Message

/-- A message as it is sent. -/
def bytes (m : Message) : Str := m.head ++ m.body

/-- The message asks for the connection to be kept. -/
def AsksKeepAlive (m : Message) : Prop :=
  lastValue m.headers (str "connection") = some (str "keep-alive")

/-- Messages sent one right after the other. -/
def stream (ms : List Message) : Str := (ms.map bytes).flatten

/-- A `recv` that delivers messages. -/
def delivery (ms : List Message) : HttpConn.RecvResult :=
  match stream ms with
  | [] => .again
  | first :: rest => .received first rest

end Message

/-- An exchange: the requests that each `recv` of a read event delivers, the shared state that `process`
    meets, and the answers of the socket to the two `write` calls that a write event can make. In
    level-triggered mode `read` makes one `recv`. -/
structure Exchange (mode : HttpConn.TrigMode) where
  recvs : List (List Message)
  world : World
  writes : List (List SocketResult × List SocketResult)
  recvs_ne : recvs ≠ []
  recv_ne : ∀ ms ∈ recvs, ms ≠ []
  wellFormed : ∀ m ∈ recvs.flatten, m.WellFormed
  keepAlive : ∀ m ∈ recvs.flatten, m.AsksKeepAlive
  fits : (Message.stream recvs.flatten).length ≤ readBufferSize
  once : mode = .LT → recvs.length = 1

namespace Exchange

variable {mode : HttpConn.TrigMode}

/-- The requests of an exchange, in the order in which they are sent. -/
def requests (x : Exchange mode) : List Message := x.recvs.flatten

/-- The connection after the `read` of an exchange, with what `read` returns. -/
def read (x : Exchange mode) (c : HttpConn) : Bool × HttpConn :=
  c.read mode (x.recvs.map Message.delivery)

/-- The request that is parsed first after the `read`. -/
def parsed (x : Exchange mode) (env : Environment) (c : HttpConn) : Option HttpBase :=
  match ReadSide.parseHttpRequest env.parseJson (x.read c).2.toReadSide with
  | .ok (true, side) => some side.httpBase
  | _ => none

end Exchange

/-- The request that the router has been given. -/
def Effect.request : Effect → Option (Str × Str)
  | .dispatch method path => some (method, path)
  | _ => none

namespace HttpConn

/-- The requests that the router has been given. -/
def dispatches (w : World) : List (Str × Str) := w.effects.filterMap Effect.request

/-- The requests that a `process` call hands to the router, as the handlers find them in the
    connection. -/
def dispatchedBy (w w' : World) (c : HttpConn) : List HttpBase :=
  ((dispatches w').drop (dispatches w).length).map (fun _ => c.httpBase)

/-- The task of a read event, when it ends with a response to be written. -/
def handleReadEvent {mode : TrigMode} (env : Environment) (c : HttpConn) (x : Exchange mode) :
    Option (World × HttpConn) :=
  match x.read c with
  | (false, _) => none
  | (true, c) =>
    match process env x.world c with
    | .ok (true, w, c) => some (w, c)
    | _ => none

/-- The tasks of the write events until the response is complete; then the connection is reset or
    closed. Where the first `write` does not return `OK` the task calls `write` again, and closes the
    connection unless that returns `AGAIN`. -/
def handleWriteEvents (sockfd : Int) (c : HttpConn) :
    List (List SocketResult × List SocketResult) → Option (Option HttpConn)
  | [] => none
  | (first, second) :: events =>
    let (status, _, side) := c.toWriteSide.write first
    let c := { c with toWriteSide := side }
    if status = .ok then some (if c.httpBase.keepAlive then some (c.init sockfd) else none)
    else
      match side.write second with
      | (.ok, _, _) => some none
      | (.again, _, side) => handleWriteEvents sockfd { c with toWriteSide := side } events
      | (.error, _, _) => none

end HttpConn

/-- A connection while it is open, the requests that the client has sent, and those that have been
    dispatched. -/
structure Pipeline where
  conn : Option HttpConn
  sent : List Message
  dispatched : List HttpBase

namespace Pipeline

variable {mode : HttpConn.TrigMode}

/-- A connection that has just been accepted. -/
def start (sockfd : Nat) (ip : Str) : Pipeline := ⟨some (HttpConn.fresh sockfd ip), [], []⟩

/-- An exchange that ends with a complete response. Once the connection is closed nothing that the client
    sends is received. -/
def step (env : Environment) (s : Pipeline) (x : Exchange mode) : Option Pipeline :=
  match s.conn with
  | none => some { s with sent := s.sent ++ x.requests }
  | some c =>
    match c.handleReadEvent env x with
    | none => none
    | some (w, c') =>
      match c'.handleWriteEvents c.sockfd x.writes with
      | none => none
      | some conn =>
        some ⟨conn, s.sent ++ x.requests, s.dispatched ++ HttpConn.dispatchedBy x.world w c'⟩

/-- The first request of an exchange is let through: its address is not limited, and the interceptors
    refuse neither its URL nor its lack of authentication. -/
def LetThrough (env : Environment) (c : HttpConn) (x : Exchange mode) : Prop :=
  (x.world.isLimit (str "access_ip") c.ip).1 = false ∧
    ∃ base ∈ x.parsed env c,
      (HttpConn.gate env (x.world.isLimit (str "access_ip") c.ip).2 base).1 = .dispatch

instance (env : Environment) (c : HttpConn) (x : Exchange mode) : Decidable (LetThrough env c x) :=
  inferInstanceAs (Decidable (_ ∧ ∃ _ ∈ _, _))

/-- The connection is open, and the exchange has one request, which is let through. -/
def OneAtATime (env : Environment) (s : Pipeline) (x : Exchange mode) : Prop :=
  ∃ c ∈ s.conn, x.requests.length = 1 ∧ LetThrough env c x

instance (env : Environment) (s : Pipeline) (x : Exchange mode) : Decidable (s.OneAtATime env x) :=
  inferInstanceAs (Decidable (∃ _ ∈ _, _))

end Pipeline

end ModularNetServer
