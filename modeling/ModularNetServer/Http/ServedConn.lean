import ModularNetServer.Library.Transition
import ModularNetServer.Net.NetServer
import ModularNetServer.Http.HttpConn

/-!
# One connection under the event loop

An `HttpConn` with what `NetServer` keeps for it: its entry in `m_users`, its registration with epoll and
the task that works for it. The stages of a task are those of `NetServer`, here with what the connection
really does in them; the calls that end a task and set a timer touch nothing here and are left out.
A timer may expire, and `shutdown` may run, between any two stages. With `Proactor` the main thread makes
the `read`, so that less can come between. While the connection is in use its number is its own.
-/

namespace ModularNetServer

open Cxx

/-- `HttpConn::write`. On a closed connection `send` and `sendfile` fail. -/
def HttpConn.write (c : HttpConn) (results : List SocketResult) : WriteStatus × HttpConn :=
  let (status, _, side) := c.toWriteSide.write (if c.sockfd = -1 then [.fails] else results)
  (status, { c with toWriteSide := side })

/-- What the task of a connection does next. -/
inductive ConnStage
  | read
  | process
  | writeCallback
  | write
  | writeAgain
  | init
  | modFd (interest : Interest)
  | closeConnection
  deriving DecidableEq

/-- The stage with which the task of an event begins. -/
def Interest.stage : Interest → ConnStage
  | .input => .read
  | .output => .write

/-- A connection, the number it was accepted with, whether `m_users` refers to it, its registration, which
    may be disarmed, and its task. -/
structure ServedConn where
  fd : Int
  conn : HttpConn
  listed : Bool
  epoll : Option (Option Interest)
  task : Option ConnStage
  destroyed : Bool

namespace ServedConn

/-- After `handleNewConnection`. -/
def start (fd : Int) (ip : Str) : ServedConn where
  fd := fd
  conn := HttpConn.fresh fd ip
  listed := true
  epoll := some (some .input)
  task := none
  destroyed := false

/-- A change of the connection. Closing its descriptor ends the registration. -/
def setConn (s : ServedConn) (c : HttpConn) : ServedConn :=
  { s with conn := c, epoll := if c.isClosed then none else s.epoll }

/-- `modFd`: the call fails on a number that is not registered. -/
def modFd (s : ServedConn) (interest : Interest) : ServedConn :=
  { s with epoll := s.epoll.map (fun _ => some interest) }

/-- `closeConnection`. -/
def closeConnection (s : ServedConn) : ServedConn :=
  if s.listed && !s.conn.isClosed then { s with listed := false }.setConn s.conn.closeConn else s

/-- What the outside answers to the calls of a stage; a `process` call meets a shared state. -/
inductive Answer
  | none
  | read (results : List HttpConn.RecvResult)
  | process (world : World)
  | write (results : List SocketResult)

/-- A stage of a task, with what is left of the task. An exception in `process` ends the server. -/
def runStage (env : Environment) (mode : HttpConn.TrigMode) (s : ServedConn) :
    ConnStage → Answer → Option (ServedConn × Option ConnStage)
  | .read, .read results =>
    let (ok, c) := s.conn.read mode results
    some (s.setConn c, some (if ok then .process else .closeConnection))
  | .process, .process w =>
    match HttpConn.process env w s.conn with
    | .error _ => none
    | .ok (success, _, c) => some (s.setConn c, some (if success then .writeCallback else .modFd .input))
  | .writeCallback, .none => some (if s.conn.isClosed then s else s.modFd .output, none)
  | .write, .write results =>
    let (status, c) := s.conn.write results
    some (s.setConn c, some
      (if status = .ok then (if c.httpBase.keepAlive then .init else .closeConnection) else .writeAgain))
  | .writeAgain, .write results =>
    let (status, c) := s.conn.write results
    some (s.setConn c, some (if status = .again then .modFd .output else .closeConnection))
  | .init, .none => some (s.setConn (s.conn.init s.fd), some (.modFd .input))
  | .modFd interest, .none => some (s.modFd interest, none)
  | .closeConnection, .none => some (s.closeConnection, none)
  | _, _ => none

/-- What happens to a connection: an event is reported and handled, its task goes on, its timer expires,
    `shutdown` closes it and drops its entry, as does a new connection under its number, or nothing refers
    to it any more. -/
inductive Action
  | event
  | work (answer : Answer)
  | expire
  | shutdown
  | destroy

/-- A step of a connection, until its destructor has run. -/
def step (env : Environment) (mode : HttpConn.TrigMode) (s : ServedConn) (a : Action) : Option ServedConn :=
  if s.destroyed then none
  else
    match a with
    | .event =>
      match s.task, s.epoll with
      | none, some (some interest) =>
        some { s with
          epoll := some none
          task := if s.listed && !s.conn.isClosed then some interest.stage else none }
      | _, _ => none
    | .work answer =>
      match s.task with
      | none => none
      | some stage =>
        (s.runStage env mode stage answer).map (fun r => { r.1 with task := r.2 })
    | .expire => some s.closeConnection
    | .shutdown => some ({ s with listed := false }.setConn s.conn.closeConn)
    | .destroy =>
      if s.listed || s.task.isSome then none
      else some { s.setConn s.conn.closeConn with destroyed := true }

end ServedConn

end ModularNetServer
