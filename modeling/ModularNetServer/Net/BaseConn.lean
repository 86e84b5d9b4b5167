import ModularNetServer.Http.HttpConn

/-!
# Connections as the server sees them

The part of a `BaseConn` (`base_conn.h`) that `NetServer` depends on: its socket and its closed flag,
as `HttpConn` and `WebSocketConn` keep them. An `m_sockfd` of -1 is `none`. The two subclasses differ
in more than they should: the `closeConn` of `WebSocketConn` returns where that of `HttpConn` goes on,
and its `isClosed` never says yes.
-/

namespace ModularNetServer

/-- The subclasses of `BaseConn`. -/
inductive ConnKind
  | http
  | webSocket
  deriving DecidableEq

/-- A `BaseConn`, with the number that `accept` gave for it and whether it has been destroyed. -/
structure BaseConn where
  kind : ConnKind
  accepted : Nat
  sockfd : Option Nat
  closed : Bool
  destroyed : Bool
  deriving DecidableEq

/-- What a `process` call comes to: it returns true, it returns false, or it returns false after
    closing the connection because no response could be built. -/
inductive Processed
  | done
  | incomplete
  | failed
  deriving DecidableEq

namespace BaseConn

/-- A newly made object, for a connection accepted as `fd`. -/
def make (kind : ConnKind) (fd : Nat) : BaseConn where
  kind := kind
  accepted := fd
  sockfd := none
  closed := false
  destroyed := false

/-- `HttpConn::init` and `WebSocketConn::init`. -/
def init (x : BaseConn) (fd : Nat) : BaseConn :=
  match x.kind with
  | .http => { x with sockfd := some fd, closed := false }
  | .webSocket =>
    if x.sockfd = some fd ∧ x.closed = false then x else { x with sockfd := some fd, closed := false }

/-- `HttpConn::closeConn` and `WebSocketConn::closeConn`, with the number that is passed to `close`. -/
def closeConn (x : BaseConn) : Option Nat × BaseConn :=
  match x.kind with
  | .http =>
    if x.closed then (none, x) else (x.sockfd, { x with closed := true, sockfd := none })
  | .webSocket =>
    if x.closed then (x.sockfd, { x with sockfd := none }) else (none, { x with closed := true })

/-- `HttpConn::isClosed` and `WebSocketConn::isClosed`. -/
def isClosed (x : BaseConn) : Bool :=
  match x.kind with
  | .http => x.closed
  | .webSocket => false

/-- What `read` returns, when the socket would have it return `ok`. -/
def read (x : BaseConn) (ok : Bool) : Bool := x.sockfd.isSome && ok

/-- What `write` returns, when the socket would have it return `status`: only `WebSocketConn::write`
    looks whether the connection is closed. -/
def write (x : BaseConn) (status : WriteStatus) : WriteStatus :=
  match x.kind with
  | .http => status
  | .webSocket => if x.sockfd = none ∨ x.closed = true then .error else status

/-- `getKeepAlive`, for a request that asked for `keepAlive`. -/
def getKeepAlive (x : BaseConn) (keepAlive : Bool) : Bool :=
  match x.kind with
  | .http => keepAlive
  | .webSocket => true

/-- The outcomes of `process`: that of `WebSocketConn` never closes the connection. -/
def process (x : BaseConn) (outcome : Processed) : Processed :=
  match x.kind, outcome with
  | .webSocket, .failed => .incomplete
  | _, _ => outcome

end BaseConn

/-- The server's view of an `HttpConn`. -/
def HttpConn.toBaseConn (c : HttpConn) (accepted : Nat) : BaseConn where
  kind := .http
  accepted := accepted
  sockfd := if c.sockfd = -1 then none else some c.sockfd.toNat
  closed := c.isClosed
  destroyed := false

end ModularNetServer
