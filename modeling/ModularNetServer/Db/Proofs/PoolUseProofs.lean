import ModularNetServer.Db.PoolUse

/-!
# Where the connections are

A step moves a connection from one place to another: from the queue to an object or to the closed ones,
and from an object back to the queue, also after the pool has been shut down.
-/

namespace ModularNetServer

open scoped List

namespace SqlConnPool

theorem initOn_eq (p : SqlConnPool) (opened : Nat) (connSize : Int) :
    p.initOn opened connSize =
      ⟨p.connQueue ++ List.range' opened connSize.toNat, p.freeConn + connSize.toNat, connSize⟩ := by
  suffices hfold : ∀ (conns : List Nat) (q : SqlConnPool), conns.foldl openConn q =
      ⟨q.connQueue ++ conns, q.freeConn + conns.length, q.maxConn⟩ by
    unfold initOn
    rw [hfold, List.length_range']
  intro conns
  induction conns with
  | nil =>
    intro q
    simp
  | cons conn conns ih =>
    intro q
    rw [List.foldl_cons, ih]
    simp only [openConn, List.append_assoc, List.singleton_append, List.length_cons, mk.injEq, true_and,
      and_true]
    omega

end SqlConnPool

namespace PoolUse

variable {s s' : PoolUse} {i : Nat}

theorem Conserved.start : Conserved PoolUse.start where
  once := List.Perm.refl _
  counted := rfl

/-- An object changes, and with it the pool. -/
theorem Conserved.setObject (h : s.Conserved) {object : SqlConnRAII} (hi : s.objects[i]? = some object)
    {pool : SqlConnPool} (hcount : pool.Counted) (object' : SqlConnRAII)
    (hmove : (object.held ++ s.pool.connQueue).Perm (object'.held ++ pool.connQueue)) :
    ({ s with pool := pool }.setObject i object').Conserved where
  once := by
    have hall : (pool.connQueue ++ (s.objects.set i object').flatMap SqlConnRAII.held).Perm
        (s.pool.connQueue ++ s.held) := Slots.store_set_perm SqlConnRAII.held hi hmove
    exact (hall.append_left s.closed).trans h.once
  counted := hcount

/-! ## Steps -/

theorem Conserved.init (h : s.Conserved) (connSize : Int) :
    Conserved { s with
      pool := s.pool.initOn s.opened connSize
      opened := s.opened + connSize.toNat } where
  once := by
    have hopened : List.range (s.opened + connSize.toNat) =
        List.range s.opened ++ List.range' s.opened connSize.toNat := by
      rw [List.range_eq_range', List.range_eq_range', ← List.range'_append, Nat.zero_add, Nat.one_mul]
    have hqueue := SqlConnPool.initOn_eq s.pool s.opened connSize
    have hold := h.once.append_right (List.range' s.opened connSize.toNat)
    rw [hopened, hqueue]
    refine List.Perm.trans ?_ hold
    simp only [List.append_assoc]
    exact (List.perm_append_comm.append_left s.pool.connQueue).append_left s.closed
  counted := by
    have hcount := h.counted
    rw [SqlConnPool.Counted] at hcount ⊢
    rw [SqlConnPool.initOn_eq]
    simp only [List.length_append, List.length_range']
    omega

theorem Conserved.lock (h : s.Conserved) (hi : s.objects[i]? = some .locking) : (s.lock i).Conserved := by
  unfold PoolUse.lock
  cases hget : s.pool.getConn with
  | none => exact h.setObject hi h.counted .waiting (List.Perm.refl _)
  | some result =>
    obtain ⟨conn, pool⟩ := result
    refine h.setObject hi (h.counted.getConn hget) (.constructed (some conn)) ?_
    rw [SqlConnPool.getConn_eq_some hget]
    exact List.Perm.refl _

theorem Conserved.destruct (h : s.Conserved) {conn : Option Nat}
    (hi : s.objects[i]? = some (.constructed conn)) : (s.destruct i conn).Conserved := by
  cases conn with
  | none => exact h.setObject hi h.counted .destructed (List.Perm.refl _)
  | some conn =>
    refine h.setObject hi (h.counted.releaseConn conn) .destructed ?_
    exact (List.perm_append_singleton conn s.pool.connQueue).symm

/-- A step keeps every connection in one place. -/
theorem Conserved.step {action : Action} (h : s.Conserved) (hr : s.step action = some s') : s'.Conserved := by
  cases action with
  | init connSize =>
    cases hr
    exact h.init connSize
  | construct given =>
    cases hr
    refine ⟨?_, h.counted⟩
    have hheld : (s.objects ++ [if given then SqlConnRAII.locking else .constructed none]).flatMap
        SqlConnRAII.held = s.held := by
      cases given <;> simp [held, SqlConnRAII.held]
    have honce := h.once
    rw [← hheld] at honce
    exact honce
  | lock i =>
    simp only [PoolUse.step] at hr
    split_ifs at hr with hi
    cases hr
    exact h.lock hi
  | wake i =>
    simp only [PoolUse.step] at hr
    split_ifs at hr with hi
    cases hr
    exact h.setObject hi h.counted .locking (List.Perm.refl _)
  | destruct i =>
    simp only [PoolUse.step] at hr
    split at hr
    · rename_i conn hi
      cases hr
      exact h.destruct hi
    · cases hr
  | shutdown =>
    cases hr
    refine ⟨?_, SqlConnPool.Counted.shutdown s.pool⟩
    have honce := h.once
    rw [← List.append_assoc] at honce
    exact honce

/-! ## Runs -/

/-- In every run each connection that was opened is queued, held by one object, or closed, and that once;
    the count of the pool is the length of its queue; and what `getConn` returns is neither closed nor held
    by an object. -/
theorem run_conserved {actions : List Action} {s : PoolUse}
    (hr : Transition.run step start actions = some s) :
    (s.closed ++ (s.pool.connQueue ++ s.held)).Perm (List.range s.opened) ∧
      s.pool.freeConn = s.pool.connQueue.length ∧
      ∀ conn pool, s.pool.getConn = some (conn, pool) → conn ∉ s.closed ∧ conn ∉ s.held := by
  have h : s.Conserved :=
    Transition.run_invariant_of_step (fun _ _ _ hi ha => hi.step ha) Conserved.start hr
  refine ⟨h.once, h.counted, ?_⟩
  intro conn pool hget
  have hnodup : (s.closed ++ (s.pool.connQueue ++ s.held)).Nodup :=
    h.once.symm.nodup List.nodup_range
  rw [SqlConnPool.getConn_eq_some hget] at hnodup
  obtain ⟨-, hqueue, hclosed⟩ := List.nodup_append.mp hnodup
  obtain ⟨-, -, hheld⟩ := List.nodup_append.mp hqueue
  constructor
  · intro hmem
    exact hclosed conn hmem conn (by simp) rfl
  · intro hmem
    exact hheld conn (by simp) conn hmem rfl

/-- Two threads and one connection, which is returned after `shutdown` and then given to the thread that
    waited for it. -/
def lateReturn : List Action :=
  [.init 1, .construct true, .construct true, .lock 0, .lock 1, .shutdown, .destruct 0, .wake 1, .lock 1]

theorem run_conserved_lateReturn :
    ∃ s, Transition.run step start lateReturn = some s ∧ s.held = [0] ∧
      (s.closed ++ (s.pool.connQueue ++ s.held)).Perm (List.range s.opened) ∧
      s.pool.freeConn = s.pool.connQueue.length := by
  obtain ⟨honce, hcount, -⟩ := @run_conserved lateReturn _ rfl
  exact ⟨_, rfl, rfl, honce, hcount⟩

end PoolUse

end ModularNetServer
