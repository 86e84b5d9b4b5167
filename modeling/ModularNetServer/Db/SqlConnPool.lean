import Mathlib.Data.List.Perm.Basic

/-!
# The pool of database connections

`SqlConnPool` (`sql_connection_pool.cpp`). A connection is given by its number in the order in which
`init` has opened them.
-/

namespace ModularNetServer

/-- `m_conn_queue`, `m_free_conn` and `m_max_conn`. -/
structure SqlConnPool where
  connQueue : List Nat
  freeConn : Int
  maxConn : Int
  deriving DecidableEq

namespace SqlConnPool

/-- `init`, where every connection can be opened. -/
def init (connSize : Nat) : SqlConnPool := ⟨List.range connSize, connSize, connSize⟩

/-- `getConn`: it waits while the queue is empty. -/
def getConn (p : SqlConnPool) : Option (Nat × SqlConnPool) :=
  match p.connQueue with
  | [] => none
  | conn :: queue => some (conn, { p with connQueue := queue, freeConn := p.freeConn - 1 })

/-- `releaseConn`. -/
def releaseConn (p : SqlConnPool) (conn : Nat) : SqlConnPool :=
  { p with connQueue := p.connQueue ++ [conn], freeConn := p.freeConn + 1 }

/-- `shutdown`: the connections that are closed, and the pool. -/
def shutdown (p : SqlConnPool) : List Nat × SqlConnPool := (p.connQueue, ⟨[], 0, 0⟩)

/-- What `getFreeConnCount` answers is the number of connections in the queue. -/
def Counted (p : SqlConnPool) : Prop := p.freeConn = p.connQueue.length

theorem counted_init (connSize : Nat) : (init connSize).Counted := by simp [Counted, init]

theorem Counted.getConn {p p' : SqlConnPool} {conn : Nat} (h : p.Counted)
    (hr : p.getConn = some (conn, p')) : p'.Counted := by
  unfold SqlConnPool.getConn at hr
  split at hr
  · cases hr
  · rename_i queue hq
    cases hr
    simp only [Counted, hq, List.length_cons] at h ⊢
    omega

theorem Counted.releaseConn {p : SqlConnPool} (h : p.Counted) (conn : Nat) :
    (p.releaseConn conn).Counted := by
  simp only [Counted, SqlConnPool.releaseConn, List.length_append, List.length_singleton] at h ⊢
  omega

theorem Counted.shutdown (p : SqlConnPool) : p.shutdown.2.Counted := rfl

/-- `getConn` takes the first connection off the queue. -/
theorem getConn_eq_some {p p' : SqlConnPool} {conn : Nat} (hr : p.getConn = some (conn, p')) :
    p.connQueue = conn :: p'.connQueue := by
  unfold getConn at hr
  split at hr
  · cases hr
  · rename_i queue hq
    cases hr
    exact hq

end SqlConnPool

end ModularNetServer
