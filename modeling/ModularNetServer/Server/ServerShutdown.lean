import ModularNetServer.Db.SqlConnPool
import ModularNetServer.ThreadPool.ThreadPool

/-!
# Shutting down the server

The last part of `NetServer::shutdown`: it shuts down the pool of database connections, then the thread
pool, which joins the workers. In between the workers run tasks that construct and destroy `SqlConnRAII`
objects.
-/

namespace ModularNetServer

/-- The `SqlConnRAII` objects of the task that a worker runs: whether it waits in the constructor of one,
    and the connections of those that are constructed. -/
structure SqlConnUse where
  asking : Bool
  held : List Nat
  deriving DecidableEq

/-- No object is left. -/
def SqlConnUse.none : SqlConnUse := ⟨false, []⟩

/-- The two pools, whether `SqlConnPool::shutdown` has been called, what the workers use, and the
    connections that have been closed. -/
structure ServerShutdown where
  sqlConnPool : SqlConnPool
  threadPool : ThreadPool
  sqlDown : Bool
  uses : List SqlConnUse
  closed : List Nat

namespace ServerShutdown

/-- A server with a number of connections and a number of workers. -/
def start (connSize threadCount : Nat) : ServerShutdown where
  sqlConnPool := SqlConnPool.init connSize
  threadPool := ThreadPool.start threadCount
  sqlDown := false
  uses := List.replicate threadCount SqlConnUse.none
  closed := []

/-- What the main thread and the workers do. -/
inductive Action
  /-- A step of the thread pool. -/
  | threadPool (action : ThreadPool.Action)
  /-- The task of a worker constructs an `SqlConnRAII`. -/
  | construct (i : Nat)
  /-- `getConn` gets a connection for it. -/
  | getConn (i : Nat)
  /-- The task destroys an object. -/
  | destruct (i conn : Nat)
  | sqlShutdown
  deriving DecidableEq

/-- The `SqlConnRAII` objects of a worker change. -/
def setUse (s : ServerShutdown) (i : Nat) (u : SqlConnUse) : ServerShutdown :=
  { s with uses := s.uses.set i u }

/-- The constructor of an object, up to `getConn`. -/
def construct (s : ServerShutdown) (i : Nat) (u : SqlConnUse) : Option ServerShutdown :=
  match s.threadPool.threads[i]? with
  | some (.running _) => if u.asking then none else some (s.setUse i { u with asking := true })
  | _ => none

/-- `getConn` ends. -/
def getConn (s : ServerShutdown) (i : Nat) (u : SqlConnUse) : Option ServerShutdown :=
  if u.asking then
    match s.sqlConnPool.getConn with
    | none => none
    | some (conn, pool) =>
      some ({ s with sqlConnPool := pool }.setUse i ⟨false, conn :: u.held⟩)
  else none

/-- The destructor of an object. -/
def destruct (s : ServerShutdown) (i : Nat) (u : SqlConnUse) (conn : Nat) : Option ServerShutdown :=
  if u.asking = false ∧ conn ∈ u.held then
    some ({ s with sqlConnPool := s.sqlConnPool.releaseConn conn }.setUse i
      { u with held := u.held.erase conn })
  else none

/-- A step of the thread pool: `NetServer::shutdown` shuts it down after the other pool, and a task
    whose objects are not all destroyed does not end. -/
def threadPoolStep (s : ServerShutdown) : ThreadPool.Action → Option ServerShutdown
  | .shutdown =>
    if s.sqlDown then (s.threadPool.step .shutdown).map (fun p => { s with threadPool := p }) else none
  | .worker i =>
    if s.uses[i]? = some SqlConnUse.none then
      (s.threadPool.step (.worker i)).map (fun p => { s with threadPool := p })
    else none
  | action => (s.threadPool.step action).map (fun p => { s with threadPool := p })

/-- A step. -/
def step (s : ServerShutdown) : Action → Option ServerShutdown
  | .threadPool action => s.threadPoolStep action
  | .construct i => s.uses[i]?.bind (s.construct i)
  | .getConn i => s.uses[i]?.bind (s.getConn i)
  | .destruct i conn => s.uses[i]?.bind (fun u => s.destruct i u conn)
  | .sqlShutdown =>
    if s.sqlDown then none
    else
      some { s with
        sqlDown := true
        sqlConnPool := s.sqlConnPool.shutdown.2
        closed := s.closed ++ s.sqlConnPool.shutdown.1 }

/-- `shutdown` waits in `join` for a worker that waits in `getConn`, and no connection is left that could
    be returned to the pool. -/
def Stuck (s : ServerShutdown) : Prop :=
  ∃ i u, s.threadPool.shutdown = .joining i ∧ s.uses[i]? = some u ∧ u.asking = true ∧
    s.sqlConnPool.connQueue = [] ∧ ∀ u ∈ s.uses, u.held = []

/-- No task waits for a connection or has one. -/
def Quiet (s : ServerShutdown) : Prop := ∀ u ∈ s.uses, u = SqlConnUse.none

instance (s : ServerShutdown) : Decidable s.Quiet := inferInstanceAs (Decidable (∀ _ ∈ _, _))

/-- The pool is shut down when no task uses it, and no task asks for a connection later. -/
def ShutsQuiet (s : ServerShutdown) : Action → Prop
  | .sqlShutdown => s.Quiet
  | .construct _ => s.sqlDown = false
  | _ => True

instance (s : ServerShutdown) : (action : Action) → Decidable (s.ShutsQuiet action)
  | .sqlShutdown => inferInstanceAs (Decidable s.Quiet)
  | .construct _ => inferInstanceAs (Decidable (s.sqlDown = false))
  | .threadPool _ => isTrue trivial
  | .getConn _ => isTrue trivial
  | .destruct _ _ => isTrue trivial

end ServerShutdown

end ModularNetServer
