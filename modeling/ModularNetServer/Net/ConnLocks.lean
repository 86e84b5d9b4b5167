import ModularNetServer.Library.WaitGraph
import ModularNetServer.Net.NetServer
import ModularNetServer.WebSocket.WebsocketConnManager

/-!
# The locks around connections

The functions of `WebsocketConnManager`, `NetServer` and `TimerManager` that lock `m_mutex`,
`m_users_mtx` and the `m_mutex` of the timers, in any number of threads. A function is a list of
instructions: it locks and unlocks, and between that it reads and changes the maps and keeps or drops a
`shared_ptr`. An instruction may put others in front of what is left, so that a destructor runs where
the last `shared_ptr` is dropped, under the locks that are held there.
-/

namespace ModularNetServer

open Cxx

/-- `WebsocketConnManager::m_mutex`, `NetServer::m_users_mtx` and `TimerManager::m_mutex`. -/
inductive Mutex
  | manager
  | users
  | timers
  deriving DecidableEq

/-- What a thread does in one step. -/
inductive Instr
  | lock (m : Mutex)
  | unlock (m : Mutex)
  /-- `bindSession` writes the maps. -/
  | bind (fd : Int) (sessionId : Str)
  /-- `removeFd` writes the maps. -/
  | unbind (fd : Int)
  /-- `sendToSession` looks up a session, and goes on if it is bound. -/
  | find (sessionId : Str)
  /-- `m_users[conn_fd] = conn`. -/
  | insert (fd : Nat) (kind : ConnKind)
  /-- `getConn` copies the `shared_ptr` of an open connection. -/
  | copy (fd : Int)
  /-- `closeConnection` moves an open connection from the map to a local variable. -/
  | take (fd : Int)
  /-- `conn->init`, for the local variable. -/
  | init (fd : Nat)
  /-- `conn->closeConn()`, for the local variable. -/
  | closeLocal
  | closeConn (c : ConnId)
  /-- `m_sockfd = -1`, the end of `closeConn`. -/
  | reset (c : ConnId)
  /-- The loop of `shutdown`. -/
  | closeUsers
  /-- `m_users.clear()`. -/
  | clear
  /-- A local `shared_ptr` goes out of scope. -/
  | drop
  deriving DecidableEq

/-- The functions that threads call. `init` and `drop` act on the connection that the thread has got
    from `getConn`. -/
inductive LockCall
  | bindSession (fd : Int) (sessionId : Str)
  | removeFd (fd : Int)
  | sendToSession (sessionId : Str)
  | getConn (fd : Int)
  | closeConnection (fd : Int)
  | refreshTimer
  | tick (expired : List Int)
  | shutdown
  | handleNewConnection (fd : Nat) (kind : ConnKind)
  | init (fd : Nat)
  | drop
  deriving DecidableEq

namespace LockCall

/-- `WebsocketConnManager::bindSession`. -/
def bindSessionCode (fd : Int) (sessionId : Str) : List Instr :=
  [.lock .manager, .bind fd sessionId, .unlock .manager]

/-- `WebsocketConnManager::removeFd`. -/
def removeFdCode (fd : Int) : List Instr := [.lock .manager, .unbind fd, .unlock .manager]

/-- `WebsocketConnManager::sendToSession`. The local `conn` is dropped before the lock is. -/
def sendToSessionCode (sessionId : Str) : List Instr :=
  [.lock .manager, .find sessionId, .unlock .manager]

/-- `NetServer::getConn`. -/
def getConnCode (fd : Int) : List Instr := [.lock .users, .copy fd, .unlock .users]

/-- `NetServer::closeConnection`. -/
def closeConnectionCode (fd : Int) : List Instr :=
  [.lock .users, .take fd, .unlock .users, .closeLocal, .drop]

/-- `NetServer::refreshTimer`, which is `TimerManager::addTimer`. -/
def refreshTimerCode : List Instr := [.lock .timers, .unlock .timers]

/-- `TimerManager::tick`, with the numbers whose timers have expired. -/
def tickCode (expired : List Int) : List Instr :=
  .lock .timers :: (expired.flatMap closeConnectionCode ++ [.unlock .timers])

/-- The part of `NetServer::shutdown` that closes the connections. -/
def shutdownCode : List Instr := [.lock .users, .closeUsers, .clear, .unlock .users]

/-- `NetServer::handleNewConnection`. -/
def handleNewConnectionCode (fd : Nat) (kind : ConnKind) : List Instr :=
  [.lock .users, .insert fd kind, .unlock .users, .init fd] ++ refreshTimerCode ++ [.drop]

/-- The instructions of a function. -/
def code : LockCall → List Instr
  | .bindSession fd sessionId => bindSessionCode fd sessionId
  | .removeFd fd => removeFdCode fd
  | .sendToSession sessionId => sendToSessionCode sessionId
  | .getConn fd => getConnCode fd
  | .closeConnection fd => closeConnectionCode fd
  | .refreshTimer => refreshTimerCode
  | .tick expired => tickCode expired
  | .shutdown => shutdownCode
  | .handleNewConnection fd kind => handleNewConnectionCode fd kind
  | .init fd => [.init fd]
  | .drop => [.drop]

end LockCall

/-- A thread: what is left of the function that it runs, the mutexes that it holds, and its local
    `shared_ptr`s, the latest first. -/
structure LockThread where
  code : List Instr
  holds : List Mutex
  locals : List (Option ConnId)
  deriving DecidableEq

/-- A thread that runs no function. -/
def LockThread.idle : LockThread := ⟨[], [], []⟩

/-- The mutex that a thread asks for. -/
def LockThread.asks (t : LockThread) : Option Mutex :=
  match t.code with
  | .lock m :: _ => some m
  | _ => none

/-- A thread asks for one mutex and holds another. -/
def LockThread.AsksUnder (t : LockThread) (outer m : Mutex) : Prop := t.asks = some m ∧ outer ∈ t.holds

instance (t : LockThread) (outer m : Mutex) : Decidable (t.AsksUnder outer m) :=
  inferInstanceAs (Decidable (_ ∧ _))

/-- The maps, the connection objects, and the threads. -/
structure ConnLocks where
  manager : WebsocketConnManager
  users : List (Int × ConnId)
  conn : ConnId → BaseConn
  next : ConnId
  threads : List LockThread

namespace ConnLocks

/-- A server with a number of threads. -/
def start (threadCount : Nat) : ConnLocks where
  manager := WebsocketConnManager.empty
  users := []
  conn := fun _ => BaseConn.make .http 0
  next := 0
  threads := List.replicate threadCount LockThread.idle

/-- No thread holds a mutex. -/
def Free (s : ConnLocks) (m : Mutex) : Prop := ∀ t ∈ s.threads, m ∉ t.holds

instance (s : ConnLocks) (m : Mutex) : Decidable (s.Free m) := inferInstanceAs (Decidable (∀ _ ∈ _, _))

/-- The connection of a number, unless it says that it is closed. -/
def getConn (s : ConnLocks) (fd : Int) : Option ConnId :=
  (s.users.lookup fd).filter (fun c => !(s.conn c).isClosed)

/-- A connection object changes. -/
def setConn (s : ConnLocks) (c : ConnId) (x : BaseConn) : ConnLocks :=
  { s with conn := fun c' => if c' = c then x else s.conn c' }

/-- A `shared_ptr` to a connection is left: in the map, or in another variable of a thread. -/
def Referenced (s : ConnLocks) (i : Nat) (locals : List (Option ConnId)) (c : ConnId) : Prop :=
  c ∈ s.users.map Prod.snd ∨ some c ∈ locals ∨
    ∃ j ∈ List.range s.threads.length, j ≠ i ∧ ∃ t ∈ s.threads[j]?, some c ∈ t.locals

instance (s : ConnLocks) (i : Nat) (locals : List (Option ConnId)) (c : ConnId) :
    Decidable (s.Referenced i locals c) := inferInstanceAs (Decidable (_ ∨ _ ∨ ∃ _ ∈ _, _))

/-- The number that `closeConn` unbinds: that of a `WebSocketConn` which has been closed before and still
    has its descriptor. -/
def unbinds (s : ConnLocks) (c : ConnId) : Option Nat :=
  match (s.conn c).kind with
  | .http => none
  | .webSocket => (s.conn c).closeConn.1

/-- An instruction, with those that are left in the thread and its local variables: the state, the
    instructions that the thread goes on with, and its local variables. -/
def exec (s : ConnLocks) (i : Nat) (code : List Instr) (locals : List (Option ConnId)) :
    Instr → ConnLocks × List Instr × List (Option ConnId)
  | .lock _ => (s, code, locals)
  | .unlock _ => (s, code, locals)
  | .bind fd sessionId => ({ s with manager := s.manager.bindSession fd sessionId }, code, locals)
  | .unbind fd => ({ s with manager := s.manager.removeFd fd }, code, locals)
  | .find sessionId =>
    match s.manager.sessionToFd sessionId with
    | none => (s, code, locals)
    | some fd => (s, LockCall.getConnCode fd ++ .drop :: code, locals)
  | .insert fd kind =>
    -- The object that had the number loses the reference of the map under the lock.
    ({ s.setConn s.next (BaseConn.make kind fd) with
        users := ((fd : Int), s.next) :: s.users.filter (fun e => e.1 ≠ fd)
        next := s.next + 1 },
      .drop :: code, s.users.lookup (fd : Int) :: some s.next :: locals)
  | .copy fd => (s, code, s.getConn fd :: locals)
  | .take fd =>
    match s.getConn fd with
    | none => (s, code, none :: locals)
    | some c => ({ s with users := s.users.filter (fun e => e.1 ≠ fd) }, code, some c :: locals)
  | .init fd =>
    match locals with
    | some c :: _ => (s.setConn c ((s.conn c).init fd), code, locals)
    | _ => (s, code, locals)
  | .closeLocal =>
    match locals with
    | some c :: _ => (s, .closeConn c :: code, locals)
    | _ => (s, code, locals)
  | .closeConn c =>
    match s.unbinds c with
    | none => (s.setConn c (s.conn c).closeConn.2, code, locals)
    | some fd => (s, LockCall.removeFdCode fd ++ .reset c :: code, locals)
  | .reset c => (s.setConn c { s.conn c with sockfd := none }, code, locals)
  | .closeUsers => (s, s.users.map (fun e => .closeConn e.2) ++ code, locals)
  | .clear =>
    ({ s with users := [] }, List.replicate s.users.length .drop ++ code,
      s.users.map (fun e => some e.2) ++ locals)
  | .drop =>
    match locals with
    | [] => (s, code, [])
    | none :: locals => (s, code, locals)
    | some c :: locals =>
      if s.Referenced i locals c then (s, code, locals)
      else (s.setConn c { s.conn c with destroyed := true }, .closeConn c :: code, locals)

/-- The mutexes that a thread holds after an instruction. -/
def held (holds : List Mutex) : Instr → List Mutex
  | .lock m => m :: holds
  | .unlock m => holds.erase m
  | _ => holds

/-- The mutex that an instruction locks is free. -/
def Enabled (s : ConnLocks) : Instr → Prop
  | .lock m => s.Free m
  | _ => True

instance (s : ConnLocks) : (instr : Instr) → Decidable (s.Enabled instr)
  | .lock m => inferInstanceAs (Decidable (s.Free m))
  | .unlock _ | .bind _ _ | .unbind _ | .find _ | .insert _ _ | .copy _ | .take _ | .init _ | .closeLocal
  | .closeConn _ | .reset _ | .closeUsers | .clear | .drop => isTrue trivial

/-- A thread changes. -/
def setThread (s : ConnLocks) (i : Nat) (t : LockThread) : ConnLocks :=
  { s with threads := s.threads.set i t }

/-- The next step of a thread. -/
def stepThread (s : ConnLocks) (i : Nat) (t : LockThread) : Option ConnLocks :=
  match t.code with
  | [] => none
  | instr :: code =>
    if s.Enabled instr then
      let (s', code', locals) := s.exec i code t.locals instr
      some (s'.setThread i ⟨code', held t.holds instr, locals⟩)
    else none

/-- What the threads do: one that runs no function calls one, or a thread takes its next step. -/
inductive Action
  | call (i : Nat) (f : LockCall)
  | step (i : Nat)
  deriving DecidableEq

/-- A step. -/
def step (s : ConnLocks) : Action → Option ConnLocks
  | .call i f =>
    match s.threads[i]? with
    | none => none
    | some t => if t.code = [] then some (s.setThread i { t with code := f.code }) else none
  | .step i =>
    match s.threads[i]? with
    | none => none
    | some t => s.stepThread i t


/-- The mutex that the `i`-th thread asks for. -/
def asks (s : ConnLocks) (i : Nat) : Option Mutex := s.threads[i]?.bind LockThread.asks

/-- The mutexes that the `i`-th thread holds. -/
def holds (s : ConnLocks) (i : Nat) : List Mutex := (s.threads[i]?.map LockThread.holds).getD []

/-- The instruction does not make a thread wait for a thread that waits for it: no `WebSocketConn` that
    unbinds its number is closed under `m_mutex`, and none under `m_users_mtx` while a thread that holds
    `m_mutex` asks for `m_users_mtx`; nor does `sendToSession` ask for `m_users_mtx` while a thread that
    holds it asks for `m_mutex`. -/
def InOrder (s : ConnLocks) (holds : List Mutex) : Instr → Prop
  | .closeConn c => (s.unbinds c).isSome = true → .manager ∉ holds ∧
      (.users ∈ holds → ∀ t ∈ s.threads, ¬ t.AsksUnder .manager .users)
  | .find sessionId => (s.manager.sessionToFd sessionId).isSome = true →
      ∀ t ∈ s.threads, ¬ t.AsksUnder .users .manager
  | _ => True

instance (s : ConnLocks) (holds : List Mutex) : (instr : Instr) → Decidable (s.InOrder holds instr)
  | .closeConn c => inferInstanceAs (Decidable ((s.unbinds c).isSome = true → _ ∧ (_ → ∀ _ ∈ _, _)))
  | .find sessionId =>
    inferInstanceAs (Decidable ((s.manager.sessionToFd sessionId).isSome = true → ∀ _ ∈ _, _))
  | .lock _ | .unlock _ | .bind _ _ | .unbind _ | .insert _ _ | .copy _ | .take _ | .init _ | .closeLocal
  | .reset _ | .closeUsers | .clear | .drop => isTrue trivial

/-- The instruction that a step executes is in order. -/
def StepInOrder (s : ConnLocks) : Action → Prop
  | .call _ _ => True
  | .step i => ∀ t ∈ s.threads[i]?, ∀ instr ∈ t.code.head?, s.InOrder t.holds instr

instance (s : ConnLocks) : (action : Action) → Decidable (s.StepInOrder action)
  | .call _ _ => isTrue trivial
  | .step _ => inferInstanceAs (Decidable (∀ _ ∈ _, ∀ _ ∈ _, _))

end ConnLocks

end ModularNetServer
