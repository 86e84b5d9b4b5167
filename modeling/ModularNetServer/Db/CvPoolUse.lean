import ModularNetServer.Db.PoolUse

/-!
# The pool of connections and its condition variable

The pool and the threads that use it once more, with the notifications of `m_cond`. `getConn` looks at the
queue and blocks within one critical section, and asks for `m_mutex` again when it has been woken up, by a
notification or without one. `releaseConn` notifies while it has `m_mutex`; `init` and `shutdown` do not.
-/

namespace ModularNetServer

/-- `SqlConnRAII`, and where its constructor is in `getConn`. -/
inductive CvSqlConnRAII
  /-- Before it looks at the queue for the first time. -/
  | locking
  /-- In `m_cond.wait`, with `m_mutex` given up. -/
  | blocked
  /-- It asks for `m_mutex`, in `m_cond.wait`. -/
  | woken
  | constructed (conn : Option Nat)
  | destructed
  deriving DecidableEq

/-- The pool, how many connections have been opened, those that have been closed, and the objects. -/
structure CvPoolUse where
  pool : SqlConnPool
  opened : Nat
  closed : List Nat
  objects : List CvSqlConnRAII

namespace CvPoolUse

/-- Before anything is called. -/
def start : CvPoolUse := ⟨SqlConnPool.empty, 0, [], []⟩

/-- What the threads do. -/
inductive Action
  | init (connSize : Int)
  /-- A constructor is called, with a pointer or with `nullptr`. -/
  | construct (given : Bool)
  /-- `getConn` has `m_mutex` and looks at the queue. -/
  | lock (i : Nat)
  /-- A blocked thread wakes up without a notification. -/
  | wakeUp (i : Nat)
  /-- A destructor, with the object whose thread its notification wakes up. -/
  | destruct (i : Nat) (woken : Option Nat)
  | shutdown
  deriving DecidableEq

/-- An object changes. -/
def setObject (s : CvPoolUse) (i : Nat) (object : CvSqlConnRAII) : CvPoolUse :=
  { s with objects := s.objects.set i object }

/-- The loop of `getConn`: it blocks if the queue is empty. -/
def lock (s : CvPoolUse) (i : Nat) : CvPoolUse :=
  match s.pool.getConn with
  | none => s.setObject i .blocked
  | some (conn, pool) => { s with pool := pool }.setObject i (.constructed (some conn))

/-- `m_cond.notify_one()`: it wakes up a blocked thread, if there is one. -/
def notifyOne (s : CvPoolUse) : Option Nat → Option CvPoolUse
  | none => if CvSqlConnRAII.blocked ∈ s.objects then none else some s
  | some i => if s.objects[i]? = some .blocked then some (s.setObject i .woken) else none

/-- The destructor: an object without a connection has nothing to return. -/
def destruct (s : CvPoolUse) (i : Nat) : Option Nat → Option Nat → Option CvPoolUse
  | none, none => some (s.setObject i .destructed)
  | none, some _ => none
  | some conn, woken => ({ s with pool := s.pool.releaseConn conn }.setObject i .destructed).notifyOne woken

/-- A step. -/
def step (s : CvPoolUse) : Action → Option CvPoolUse
  | .init connSize =>
    some { s with pool := s.pool.initOn s.opened connSize, opened := s.opened + connSize.toNat }
  | .construct given =>
    some { s with objects := s.objects ++ [if given then .locking else .constructed none] }
  | .lock i =>
    if s.objects[i]? = some .locking ∨ s.objects[i]? = some .woken then some (s.lock i) else none
  | .wakeUp i => if s.objects[i]? = some .blocked then some (s.setObject i .woken) else none
  | .destruct i woken =>
    match s.objects[i]? with
    | some (.constructed conn) => s.destruct i conn woken
    | _ => none
  | .shutdown => some { s with pool := s.pool.shutdown.2, closed := s.closed ++ s.pool.shutdown.1 }

/-- `init` is called while no thread is blocked. -/
def InitsEarly (s : CvPoolUse) : Action → Prop
  | .init _ => CvSqlConnRAII.blocked ∉ s.objects
  | _ => True

instance (s : CvPoolUse) : (action : Action) → Decidable (s.InitsEarly action)
  | .init _ => inferInstanceAs (Decidable (_ ∉ _))
  | .construct _ => isTrue trivial
  | .lock _ => isTrue trivial
  | .wakeUp _ => isTrue trivial
  | .destruct _ _ => isTrue trivial
  | .shutdown => isTrue trivial

end CvPoolUse

end ModularNetServer
