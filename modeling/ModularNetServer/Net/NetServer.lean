import ModularNetServer.Library.Table
import ModularNetServer.Library.Transition
import ModularNetServer.Net.BaseConn

/-!
# The server

`NetServer` (`net_server.cpp`) with the tasks of its thread pool and the kernel tables that its calls
act on. A step is one call of the main thread or of a worker task; the steps of different tasks and
of the main thread interleave freely. A timer stands for its callback `closeConnection(fd)` and may
expire at any `tick`. Event notification is one-shot: a reported descriptor stays registered but is
disarmed.

Two things are kept that the program does not keep: whose descriptor a number is at present, and a
log of the calls that act on numbers, each with the connection on whose behalf it is made.
-/

namespace ModularNetServer

/-- `ServerConfig::ActorModel`. -/
inductive ActorModel
  | Proactor
  | Reactor
  deriving DecidableEq

/-- A connection object, by the order in which the connections were accepted. -/
abbrev ConnId := Nat

/-- What a descriptor is armed for. -/
inductive Interest
  | input
  | output
  deriving DecidableEq

/-- An event that `epoll_wait` reports: a connection on one of the listening sockets, whose port
    decides what object is made for it; a signal; or an event of a connection, where `hangup` has
    neither `EPOLLIN` nor `EPOLLOUT`. -/
inductive Event
  | connection (kind : ConnKind)
  | signal (terminates : Bool)
  | input (fd : Nat)
  | output (fd : Nat)
  | hangup (fd : Nat)
  deriving DecidableEq

/-- The connection's descriptor that an event is for. -/
def Event.fd : Event → Option Nat
  | .connection _ => none
  | .signal _ => none
  | .input fd => some fd
  | .output fd => some fd
  | .hangup fd => some fd

/-- What a task does next. `rearm` and `refreshIfOpen` end the task of a read event after a `process`
    call, the other calls at the end those of the branches of a write event. -/
inductive Stage
  | read
  | process
  | writeCallback
  | rearm
  | refreshIfOpen
  | write
  | writeAgain
  | init
  | modFd (interest : Interest)
  | refreshTimer
  | closeConnection
  deriving DecidableEq

/-- The stages that ask first whether the connection is still open. -/
def Stage.checksOpen : Stage → Bool
  | .writeCallback => true
  | .refreshIfOpen => true
  | _ => false

/-- A task of the thread pool, with the `conn` and the `fd` that it captures. -/
structure Task where
  conn : ConnId
  fd : Nat
  stage : Stage
  deriving DecidableEq

/-- The calls that act on a number. -/
inductive ActKind
  | close
  | rearm
  | remove
  | erase
  deriving DecidableEq

/-- A call that acted on a number: the connection on whose behalf it was made, and the one whose
    descriptor the number was. -/
structure Act where
  kind : ActKind
  actor : ConnId
  owner : Option ConnId
  deriving DecidableEq

/-- A call acted on the descriptor of the connection on whose behalf it was made. -/
def Act.Own (a : Act) : Prop := a.owner = some a.actor

instance (a : Act) : Decidable a.Own := inferInstanceAs (Decidable (_ = _))

/-- What the outside answers to the calls of a step. -/
inductive Answer
  | none
  | accept (fd : Option Nat)
  | read (ok : Bool)
  | process (outcome : Processed)
  | write (status : WriteStatus) (keepAlive : Bool)
  deriving DecidableEq

/-- `NetServer`: `m_is_running`, the events that `epoll_wait` reported and the loop has not handled,
    whether `tick` may still run callbacks, the tasks, `m_users`, the timers with the connection on
    whose behalf each was set, the registrations of the epoll instance, whose descriptor each number
    is, the connection objects made so far, and the log. -/
structure NetServer where
  isRunning : Bool
  events : List Event
  ticking : Bool
  tasks : List Task
  users : Table Nat ConnId
  timers : Table Nat ConnId
  epoll : Table Nat (Option Interest)
  owner : Table Nat ConnId
  conn : ConnId → BaseConn
  next : ConnId
  log : List Act

namespace NetServer

/-- The server before its first event. -/
def start : NetServer where
  isRunning := true
  events := []
  ticking := false
  tasks := []
  users := Table.empty
  timers := Table.empty
  epoll := Table.empty
  owner := Table.empty
  conn := fun _ => BaseConn.make .http 0
  next := 0
  log := []

/-! ## Calls of the kernel -/

/-- Writing the log. -/
def record (s : NetServer) (kind : ActKind) (actor : ConnId) (fd : Nat) : NetServer :=
  { s with log := ⟨kind, actor, s.owner fd⟩ :: s.log }

/-- `close(fd)`, which also ends a registration. -/
def closeFd (s : NetServer) (actor : ConnId) (fd : Nat) : NetServer :=
  { s.record .close actor fd with owner := s.owner.erase fd, epoll := s.epoll.erase fd }

/-- `modFd`: the call fails on a number that is not registered. -/
def modFd (s : NetServer) (actor : ConnId) (fd : Nat) (interest : Interest) : NetServer :=
  if (s.epoll fd).isSome then
    { s.record .rearm actor fd with epoll := s.epoll.insert fd (some interest) }
  else s

/-- `removeFd`: the call fails on a number that is not registered. -/
def removeFd (s : NetServer) (actor : ConnId) (fd : Nat) : NetServer :=
  if (s.epoll fd).isSome then { s.record .remove actor fd with epoll := s.epoll.erase fd } else s

/-! ## Connections -/

/-- A change of a connection object. -/
def setConn (s : NetServer) (c : ConnId) (x : BaseConn) : NetServer :=
  { s with conn := fun c' => if c' = c then x else s.conn c' }

/-- `conn->closeConn()`. -/
def closeConn (s : NetServer) (actor c : ConnId) : NetServer :=
  match (s.conn c).closeConn with
  | (none, x) => s.setConn c x
  | (some fd, x) => (s.setConn c x).closeFd actor fd

/-- `closeConnection`. -/
def closeConnection (s : NetServer) (actor : ConnId) (fd : Nat) : NetServer :=
  match s.users fd with
  | none => s
  | some c =>
    if (s.conn c).isClosed then s
    else
      let s := { s.record .erase actor fd with users := s.users.erase fd }
      (s.removeFd actor fd).closeConn actor c

/-- `refreshTimer`. -/
def refreshTimer (s : NetServer) (actor : ConnId) (fd : Nat) : NetServer :=
  { s with timers := s.timers.insert fd actor }

/-- `conn->init(fd, conn->getAddr())`. -/
def initConn (s : NetServer) (c : ConnId) (fd : Nat) : NetServer := s.setConn c ((s.conn c).init fd)

/-- The callback set by `setEpollWriteCallback`, called with `m_sockfd`. -/
def writeCallback (s : NetServer) (c : ConnId) : NetServer :=
  if (s.conn c).isClosed then s
  else
    match (s.conn c).sockfd with
    | none => s
    | some fd => s.modFd c fd .output

/-- `addTask`. -/
def addTask (s : NetServer) (t : Task) : NetServer := { s with tasks := s.tasks ++ [t] }

/-! ## Events -/

/-- `handleNewConnection`, once `accept` has given `fd`. -/
def handleNewConnection (s : NetServer) (kind : ConnKind) (fd : Nat) : NetServer :=
  let c := s.next
  let s := { s with
    owner := s.owner.insert fd c
    epoll := s.epoll.insert fd (some .input)
    users := s.users.insert fd c
    next := c + 1 }
  ((s.setConn c (BaseConn.make kind fd)).initConn c fd).refreshTimer c fd

/-- `handleReadEvent`: with `Proactor` the main thread reads. -/
def handleReadEvent (model : ActorModel) (s : NetServer) (fd : Nat) (ok : Bool) : NetServer :=
  match s.users fd with
  | none => s
  | some c =>
    if (s.conn c).isClosed then s
    else
      match model with
      | .Reactor => s.addTask ⟨c, fd, .read⟩
      | .Proactor =>
        if (s.conn c).read ok then s.addTask ⟨c, fd, .process⟩ else s.closeConnection c fd

/-- `handleWriteEvent`. -/
def handleWriteEvent (s : NetServer) (fd : Nat) : NetServer :=
  match s.users fd with
  | none => s
  | some c => if (s.conn c).isClosed then s else s.addTask ⟨c, fd, .write⟩

/-- The body of the loop over the reported events. `shutdown` starts by closing the listening
    sockets, after which `accept` fails. -/
def handleEvent (model : ActorModel) (s : NetServer) : Event → Answer → Option NetServer
  | .connection _, .accept none => some s
  | .connection kind, .accept (some fd) =>
    if s.isRunning = true ∧ s.owner fd = none then some (s.handleNewConnection kind fd) else none
  | .signal terminates, .none => some { s with isRunning := s.isRunning && !terminates }
  | .input fd, .read ok => some (s.handleReadEvent model fd ok)
  | .output fd, .none => some (s.handleWriteEvent fd)
  | .hangup _, .none => some s
  | _, _ => none

/-- Can `epoll_wait` report an event? -/
def ready (s : NetServer) : Event → Bool
  | .connection _ => true
  | .signal _ => true
  | .input fd => s.epoll fd = some (some .input)
  | .output fd => s.epoll fd = some (some .output)
  | .hangup fd => (s.epoll fd).join.isSome

/-- One-shot notification: reported descriptors are disarmed. -/
def disarm (s : NetServer) (fds : List Nat) : NetServer :=
  { s with epoll := fun fd => if fd ∈ fds then (s.epoll fd).map (fun _ => none) else s.epoll fd }

/-! ## Tasks -/

/-- A step of a task, with what is left of the task. -/
def runStage (s : NetServer) (c : ConnId) (fd : Nat) :
    Stage → Answer → Option (NetServer × Option Stage)
  | .read, .read ok => some (s, some (if (s.conn c).read ok then .process else .closeConnection))
  | .process, .process outcome =>
    match (s.conn c).process outcome with
    | .done => some (s, some .writeCallback)
    | .incomplete => some (s, some .rearm)
    | .failed => some (s.closeConn c c, some .rearm)
  | .writeCallback, .none => some (s.writeCallback c, some .refreshIfOpen)
  | .rearm, .none => some (s.modFd c fd .input, some .refreshIfOpen)
  | .refreshIfOpen, .none => some (if (s.conn c).isClosed then s else s.refreshTimer c fd, none)
  | .write, .write status keepAlive =>
    match (s.conn c).write status with
    | .ok => some (s, some (if (s.conn c).getKeepAlive keepAlive then .init else .closeConnection))
    | .again => some (s, some .writeAgain)
    | .error => some (s, some .writeAgain)
  | .writeAgain, .write status _ =>
    match (s.conn c).write status with
    | .ok => some (s, some .closeConnection)
    | .again => some (s, some (.modFd .output))
    | .error => some (s, some .closeConnection)
  | .init, .none => some (s.initConn c fd, some (.modFd .input))
  | .modFd interest, .none => some (s.modFd c fd interest, some .refreshTimer)
  | .refreshTimer, .none => some (s.refreshTimer c fd, none)
  | .closeConnection, .none => some (s.closeConnection c fd, none)
  | _, _ => none

/-- What is left of the `i`-th task: nothing, or its next stage. -/
def setTask (s : NetServer) (i : Nat) (t : Task) : Option Stage → NetServer
  | none => { s with tasks := s.tasks.eraseIdx i }
  | some stage => { s with tasks := s.tasks.set i { t with stage := stage } }

/-- A worker takes a step of the `i`-th task. -/
def work (s : NetServer) (i : Nat) (answer : Answer) : Option NetServer :=
  match s.tasks[i]? with
  | none => none
  | some t =>
    match s.runStage t.conn t.fd t.stage answer with
    | none => none
    | some (s, stage) => some (s.setTask i t stage)

/-! ## Runs -/

/-- Is a connection object referred to by `m_users` or by a task? An object is only ever entered in
    `m_users` under the number it was accepted with. -/
def isReferenced (s : NetServer) (c : ConnId) : Bool :=
  s.users (s.conn c).accepted = some c || s.tasks.any (fun t => t.conn = c)

/-- The destructor of a connection object, run when nothing refers to it any more. -/
def destroy (s : NetServer) (c : ConnId) : NetServer :=
  let s := s.closeConn c c
  s.setConn c { s.conn c with destroyed := true }

/-- What the main thread and the workers do: `shutdownConn` is the pass of `shutdown` over one entry
    of `m_users`. -/
inductive Action
  | epollWait (events : List Event)
  | expire (fd : Nat)
  | handle (answer : Answer)
  | work (i : Nat) (answer : Answer)
  | destroy (c : ConnId)
  | shutdownConn (fd : Nat)
  deriving DecidableEq

/-- A step of the server. The callbacks of a `tick` run between `epoll_wait` and the first event. -/
def step (model : ActorModel) (s : NetServer) : Action → Option NetServer
  | .epollWait events =>
    if s.isRunning = true ∧ s.events = [] ∧ (events.filterMap Event.fd).Nodup ∧
        ∀ e ∈ events, s.ready e = true then
      some { s.disarm (events.filterMap Event.fd) with events := events, ticking := true }
    else none
  | .expire fd =>
    match s.timers fd with
    | none => none
    | some c =>
      if s.ticking then
        let s := s.closeConnection c fd
        some { s with timers := s.timers.erase fd }
      else none
  | .handle answer =>
    match s.events with
    | [] => none
    | e :: events => { s with events := events, ticking := false }.handleEvent model e answer
  | .work i answer => s.work i answer
  | .destroy c =>
    if c < s.next ∧ (s.conn c).destroyed = false ∧ s.isReferenced c = false then some (s.destroy c)
    else none
  | .shutdownConn fd =>
    match s.users fd with
    | none => none
    | some c =>
      if s.isRunning then none
      else
        let s := s.closeConn c c
        some { s with users := s.users.erase fd }

/-- How often the descriptor of a connection has been closed. -/
def closes (s : NetServer) (c : ConnId) : Nat :=
  s.log.countP (fun a => a.kind = .close ∧ a.owner = some c)

/-- The task that an action is a step of. -/
def worked (s : NetServer) : Action → Option Task
  | .work i _ => s.tasks[i]?
  | _ => none

end NetServer

/-- The number that an action accepts a connection with. -/
def NetServer.Action.accepts : NetServer.Action → Option Nat
  | .handle (.accept fd) => fd
  | _ => none

/-- Is no response built in the `process` call of an action? -/
def NetServer.Action.fails : NetServer.Action → Bool
  | .work _ (.process .failed) => true
  | _ => false

end ModularNetServer
