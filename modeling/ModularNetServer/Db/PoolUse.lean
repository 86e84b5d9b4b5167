import ModularNetServer.Library.Slots
import ModularNetServer.Library.Transition
import ModularNetServer.Db.SqlConnPool

/-!
# Threads that use the pool of connections

The pool and the `SqlConnRAII` objects (`sql_conn_raii.cpp`) of any number of threads. What a function of
the pool does while it has the mutex is one step; `getConn` gives the mutex up while it waits.
-/

namespace ModularNetServer

namespace SqlConnPool

/-- The pool before `init`. -/
def empty : SqlConnPool := ⟨[], 0, 0⟩

/-- `m_conn_queue.push(conn)` and `++m_free_conn`, in the loop of `init`. -/
def openConn (p : SqlConnPool) (conn : Nat) : SqlConnPool :=
  { p with connQueue := p.connQueue ++ [conn], freeConn := p.freeConn + 1 }

/-- `init` on any pool, where every connection can be opened; `opened` counts those of earlier calls. -/
def initOn (p : SqlConnPool) (opened : Nat) (connSize : Int) : SqlConnPool :=
  (List.range' opened connSize.toNat).foldl openConn { p with maxConn := connSize }

end SqlConnPool

/-- `SqlConnRAII`: in its constructor, before `getConn` takes the mutex or waiting in `m_cond.wait`; then
    with its `m_conn`; then gone. -/
inductive SqlConnRAII
  | locking
  | waiting
  | constructed (conn : Option Nat)
  | destructed
  deriving DecidableEq

/-- The connection that an object has. -/
def SqlConnRAII.held : SqlConnRAII → List Nat
  | .constructed (some conn) => [conn]
  | _ => []

/-- The pool, how many connections have been opened, those that have been closed, and the objects. -/
structure PoolUse where
  pool : SqlConnPool
  opened : Nat
  closed : List Nat
  objects : List SqlConnRAII

namespace PoolUse

/-- Before anything is called. -/
def start : PoolUse := ⟨SqlConnPool.empty, 0, [], []⟩

/-- What the threads do. -/
inductive Action
  | init (connSize : Int)
  /-- A constructor is called, with a pointer or with `nullptr`. -/
  | construct (given : Bool)
  /-- `getConn` takes the mutex and looks at the queue. -/
  | lock (i : Nat)
  /-- `m_cond.wait` ends: it was notified, or without a reason. -/
  | wake (i : Nat)
  | destruct (i : Nat)
  | shutdown
  deriving DecidableEq

/-- The connections that objects have. -/
def held (s : PoolUse) : List Nat := s.objects.flatMap SqlConnRAII.held

/-- An object changes. -/
def setObject (s : PoolUse) (i : Nat) (object : SqlConnRAII) : PoolUse :=
  { s with objects := s.objects.set i object }

/-- The loop of `getConn`: it waits if the queue is empty. -/
def lock (s : PoolUse) (i : Nat) : PoolUse :=
  match s.pool.getConn with
  | none => s.setObject i .waiting
  | some (conn, pool) => { s with pool := pool }.setObject i (.constructed (some conn))

/-- The destructor: an object without a connection has nothing to return. -/
def destruct (s : PoolUse) (i : Nat) : Option Nat → PoolUse
  | none => s.setObject i .destructed
  | some conn => { s with pool := s.pool.releaseConn conn }.setObject i .destructed

/-- A step. -/
def step (s : PoolUse) : Action → Option PoolUse
  | .init connSize =>
    some { s with pool := s.pool.initOn s.opened connSize, opened := s.opened + connSize.toNat }
  | .construct given =>
    some { s with objects := s.objects ++ [if given then .locking else .constructed none] }
  | .lock i => if s.objects[i]? = some .locking then some (s.lock i) else none
  | .wake i => if s.objects[i]? = some .waiting then some (s.setObject i .locking) else none
  | .destruct i =>
    match s.objects[i]? with
    | some (.constructed conn) => some (s.destruct i conn)
    | _ => none
  | .shutdown => some { s with pool := s.pool.shutdown.2, closed := s.closed ++ s.pool.shutdown.1 }

/-- Every connection that was opened is queued, held or closed, and that once; the count of the pool is
    that of its queue. -/
structure Conserved (s : PoolUse) : Prop where
  once : (s.closed ++ (s.pool.connQueue ++ s.held)).Perm (List.range s.opened)
  counted : s.pool.Counted

end PoolUse

end ModularNetServer
