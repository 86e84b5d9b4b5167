import ModularNetServer.Server.ServerShutdown
import ModularNetServer.ThreadPool.Proofs.ThreadPoolProofs

/-!
# How the shutdown of the server ends

Once the pool of connections is shut down and no task uses it, it stays so. A connection that is checked
out at that time comes back to the queue and is not closed, and a task that asks for one later never gets
one, or one that is not closed either.
-/

namespace ModularNetServer

namespace ServerShutdown

open scoped List

variable {s s' : ServerShutdown} {action : Action} {i connSize : Nat} {u : SqlConnUse}

/-- The connections that are checked out. -/
def held (s : ServerShutdown) : List Nat := s.uses.flatMap SqlConnUse.held

/-- What holds between steps: the order of the two shutdowns, only tasks have objects, and each
    connection is closed, in the queue, or checked out. -/
structure Inv (connSize : Nat) (s : ServerShutdown) : Prop where
  threadPool : s.threadPool.Inv
  counted : s.sqlConnPool.Counted
  order : s.threadPool.shutdown ≠ .notCalled → s.sqlDown = true
  running : ∀ (i : Nat) u, s.uses[i]? = some u → u ≠ SqlConnUse.none →
    ∃ task, s.threadPool.threads[i]? = some (.running task)
  conserved : (s.closed ++ (s.sqlConnPool.connQueue ++ s.held)).Perm (List.range connSize)

theorem Inv.start (connSize threadCount : Nat) : Inv connSize (start connSize threadCount) where
  threadPool := ThreadPool.Inv.start threadCount
  counted := SqlConnPool.counted_init connSize
  order := by
    intro h
    exact absurd rfl h
  running := by
    intro i u hu hne
    exact absurd (List.eq_of_mem_replicate (List.mem_of_getElem? hu)) hne
  conserved := by
    have hheld : (ServerShutdown.start connSize threadCount).held = [] := by
      simp [held, ServerShutdown.start, SqlConnUse.none]
    rw [hheld, List.append_nil]
    exact List.Perm.refl _

/-! ## Steps of the thread pool -/

/-- A step of the thread pool leaves the connections alone. -/
theorem threadPoolStep_cases {a : ThreadPool.Action} (hr : s.threadPoolStep a = some s') :
    ∃ p, s.threadPool.step a = some p ∧ s' = { s with threadPool := p } ∧
      (a = .shutdown → s.sqlDown = true) ∧ ∀ i, a = .worker i → s.uses[i]? = some SqlConnUse.none := by
  cases a with
  | addTask =>
    simp only [threadPoolStep] at hr
    obtain ⟨p, hp, rfl⟩ := Option.map_eq_some_iff.mp hr
    exact ⟨p, hp, rfl, by simp, by simp⟩
  | addReturn task =>
    simp only [threadPoolStep] at hr
    obtain ⟨p, hp, rfl⟩ := Option.map_eq_some_iff.mp hr
    exact ⟨p, hp, rfl, by simp, by simp⟩
  | worker i =>
    simp only [threadPoolStep] at hr
    split at hr
    · rename_i hnone
      obtain ⟨p, hp, rfl⟩ := Option.map_eq_some_iff.mp hr
      refine ⟨p, hp, rfl, by simp, ?_⟩
      intro j hj
      cases hj
      exact hnone
    · cases hr
  | shutdown =>
    simp only [threadPoolStep] at hr
    split at hr
    · rename_i hdown
      obtain ⟨p, hp, rfl⟩ := Option.map_eq_some_iff.mp hr
      exact ⟨p, hp, rfl, fun _ => hdown, by simp⟩
    · cases hr

theorem Inv.threadPoolStep (h : Inv connSize s) {a : ThreadPool.Action}
    (hr : s.threadPoolStep a = some s') : Inv connSize s' := by
  obtain ⟨p, hp, rfl, hdown, hidle⟩ := threadPoolStep_cases hr
  refine { h with threadPool := h.threadPool.step hp, order := ?_, running := ?_ }
  · intro hcalled
    by_cases ha : a = .shutdown
    · exact hdown ha
    · rw [ThreadPool.step_shutdown ha hp] at hcalled
      exact h.order hcalled
  · intro i u hu hne
    obtain ⟨task, hrun⟩ := h.running i u hu hne
    refine ⟨task, ?_⟩
    by_cases ha : ∃ j, a = .worker j
    · obtain ⟨j, rfl⟩ := ha
      obtain ⟨-, w, hw⟩ := ThreadPool.step_worker_threads hp
      have hji : j ≠ i := by
        rintro rfl
        have hnone := hidle j rfl
        exact hne (Option.some.inj (hu.symm.trans hnone))
      show p.threads[i]? = _
      rw [hw, List.getElem?_set_ne hji]
      exact hrun
    · show p.threads[i]? = _
      rw [ThreadPool.step_threads (fun j hj => ha ⟨j, hj⟩) hp]
      exact hrun

/-! ## Steps of the tasks -/

theorem step_construct_cases (hr : s.step (.construct i) = some s') :
    ∃ u, s.uses[i]? = some u ∧ (∃ task, s.threadPool.threads[i]? = some (.running task)) ∧
      s' = s.setUse i ⟨true, u.held⟩ := by
  obtain ⟨u, hu, hr⟩ := Option.bind_eq_some_iff.mp hr
  unfold construct at hr
  split at hr
  · rename_i task hrun
    split at hr
    · cases hr
    · cases hr
      exact ⟨u, hu, ⟨task, hrun⟩, rfl⟩
  · cases hr

theorem step_getConn_cases (hr : s.step (.getConn i) = some s') :
    ∃ u conn pool, s.uses[i]? = some u ∧ u.asking = true ∧
      s.sqlConnPool.getConn = some (conn, pool) ∧
      s' = { s with sqlConnPool := pool }.setUse i ⟨false, conn :: u.held⟩ := by
  obtain ⟨u, hu, hr⟩ := Option.bind_eq_some_iff.mp hr
  unfold getConn at hr
  split at hr
  · rename_i hask
    split at hr
    · cases hr
    · rename_i conn pool hget
      cases hr
      exact ⟨u, conn, pool, hu, hask, hget, rfl⟩
  · cases hr

theorem step_destruct_cases {conn : Nat} (hr : s.step (.destruct i conn) = some s') :
    ∃ u, s.uses[i]? = some u ∧ conn ∈ u.held ∧
      s' = { s with sqlConnPool := s.sqlConnPool.releaseConn conn }.setUse i
        { u with held := u.held.erase conn } := by
  obtain ⟨u, hu, hr⟩ := Option.bind_eq_some_iff.mp hr
  unfold destruct at hr
  split at hr
  · rename_i hheld
    cases hr
    exact ⟨u, hu, hheld.2, rfl⟩
  · cases hr

/-- The objects of a worker that runs a task change. -/
theorem Inv.setUse (h : Inv connSize s) (hu : s.uses[i]? = some u)
    (hrun : ∃ task, s.threadPool.threads[i]? = some (.running task)) {pool : SqlConnPool}
    (hcount : pool.Counted) (u' : SqlConnUse)
    (hheld : (u.held ++ s.sqlConnPool.connQueue).Perm (u'.held ++ pool.connQueue)) :
    Inv connSize ({ s with sqlConnPool := pool }.setUse i u') where
  threadPool := h.threadPool
  counted := hcount
  order := h.order
  running := by
    intro j v hv hne
    by_cases hij : i = j
    · subst hij
      exact hrun
    · apply h.running j v _ hne
      rw [← hv]
      exact (List.getElem?_set_ne hij).symm
  conserved := by
    have hall : (pool.connQueue ++ (s.uses.set i u').flatMap SqlConnUse.held).Perm
        (s.sqlConnPool.connQueue ++ s.held) := Slots.store_set_perm SqlConnUse.held hu hheld
    exact (hall.append_left s.closed).trans h.conserved

theorem Inv.step (h : Inv connSize s) (hr : s.step action = some s') : Inv connSize s' := by
  cases action with
  | threadPool a => exact h.threadPoolStep hr
  | construct i =>
    obtain ⟨u, hu, hrun, rfl⟩ := step_construct_cases hr
    exact h.setUse hu hrun h.counted ⟨true, u.held⟩ (List.Perm.refl _)
  | getConn i =>
    obtain ⟨u, conn, pool, hu, hask, hget, rfl⟩ := step_getConn_cases hr
    have hne : u ≠ SqlConnUse.none := by
      rintro rfl
      cases hask
    apply h.setUse hu (h.running i u hu hne) (h.counted.getConn hget)
    rw [SqlConnPool.getConn_eq_some hget]
    exact List.perm_middle
  | destruct i conn =>
    obtain ⟨u, hu, hmem, rfl⟩ := step_destruct_cases hr
    have hne : u ≠ SqlConnUse.none := by
      rintro rfl
      cases hmem
    apply h.setUse hu (h.running i u hu hne) (h.counted.releaseConn conn)
    calc u.held ++ s.sqlConnPool.connQueue
      _ ~ conn :: u.held.erase conn ++ s.sqlConnPool.connQueue :=
        (List.perm_cons_erase hmem).append_right _
      _ ~ u.held.erase conn ++ (conn :: s.sqlConnPool.connQueue) := List.perm_middle.symm
      _ ~ u.held.erase conn ++ (s.sqlConnPool.connQueue ++ [conn]) :=
        (List.perm_append_singleton conn _).symm.append_left _
  | sqlShutdown =>
    simp only [ServerShutdown.step] at hr
    split at hr
    · cases hr
    · cases hr
      refine { h with counted := SqlConnPool.Counted.shutdown s.sqlConnPool, order := fun _ => rfl, conserved := ?_ }
      have hp := h.conserved
      rw [← List.append_assoc] at hp
      exact hp

/-! ## After the pool of connections is shut down -/

/-- The pool is empty and no task uses it. -/
def Down (s : ServerShutdown) : Prop := s.sqlConnPool.connQueue = [] ∧ s.Quiet

/-- A task that uses the pool keeps it from being down. -/
theorem not_down_of_use (hu : s.uses[i]? = some u) (hne : u ≠ SqlConnUse.none) : ¬ s.Down := by
  intro h
  exact hne (h.2 u (List.mem_of_getElem? hu))

theorem getElem?_setUse (hu : s.uses[i]? = some u) (u' : SqlConnUse) :
    (s.setUse i u').uses[i]? = some u' :=
  List.getElem?_set_self (List.getElem?_eq_some_iff.mp hu).1

/-- Whether the pool stays down is decided by the step that shuts it down and by the tasks that ask for
    a connection later. -/
theorem step_down (hr : s.step action = some s') :
    (s'.sqlDown = true → s'.Down) ↔ (s.sqlDown = true → s.Down) ∧ s.ShutsQuiet action := by
  cases action with
  | threadPool a =>
    obtain ⟨p, -, rfl, -, -⟩ := threadPoolStep_cases hr
    have hq : s.ShutsQuiet (.threadPool a) := trivial
    rw [and_iff_left hq]
    rfl
  | construct i =>
    obtain ⟨u, hu, -, rfl⟩ := step_construct_cases hr
    have hnot : ¬ (s.setUse i ⟨true, u.held⟩).Down :=
      not_down_of_use (getElem?_setUse hu _) (by simp [SqlConnUse.none])
    by_cases hdown : s.sqlDown = true
    · have hset : (s.setUse i ⟨true, u.held⟩).sqlDown = true := hdown
      simp [hset, hnot, ShutsQuiet, hdown]
    · have hset : ¬ (s.setUse i ⟨true, u.held⟩).sqlDown = true := hdown
      simp [hset, ShutsQuiet, hdown]
  | getConn i =>
    obtain ⟨u, conn, pool, hu, hask, -, rfl⟩ := step_getConn_cases hr
    have hne : u ≠ SqlConnUse.none := by
      rintro rfl
      cases hask
    have hnot := not_down_of_use hu hne
    have hnot' : ¬ ({ s with sqlConnPool := pool }.setUse i ⟨false, conn :: u.held⟩).Down :=
      not_down_of_use (getElem?_setUse hu _) (by simp [SqlConnUse.none])
    have hq : s.ShutsQuiet (.getConn i) := trivial
    rw [and_iff_left hq]
    exact imp_congr_right (fun _ => iff_of_false hnot' hnot)
  | destruct i conn =>
    obtain ⟨u, hu, hmem, rfl⟩ := step_destruct_cases hr
    have hne : u ≠ SqlConnUse.none := by
      rintro rfl
      cases hmem
    have hnot := not_down_of_use hu hne
    have hnot' : ¬ ({ s with sqlConnPool := s.sqlConnPool.releaseConn conn }.setUse i
        { u with held := u.held.erase conn }).Down := by
      rintro ⟨hempty, -⟩
      simp [setUse, SqlConnPool.releaseConn] at hempty
    have hq : s.ShutsQuiet (.destruct i conn) := trivial
    rw [and_iff_left hq]
    exact imp_congr_right (fun _ => iff_of_false hnot' hnot)
  | sqlShutdown =>
    simp only [step] at hr
    split at hr
    · cases hr
    · rename_i hdown
      cases hr
      simp [hdown, Down, ShutsQuiet, Quiet, SqlConnPool.shutdown]

/-! ## Runs -/

/-- When `shutdown` has returned, no task is left. -/
theorem Inv.quiet (h : Inv connSize s) (hret : s.threadPool.shutdown = .returned) : s.Quiet := by
  intro u hmem
  obtain ⟨i, hu⟩ := List.mem_iff_getElem?.mp hmem
  by_contra hne
  obtain ⟨task, hrun⟩ := h.running i u hu hne
  have hexit := h.threadPool.exited hret _ (List.mem_of_getElem? hrun)
  cases hexit

/-- In every run each connection that the pool has opened is closed, in its queue, or checked out by one
    task. -/
theorem run_conserves (connSize threadCount : Nat) {actions : List Action} {s : ServerShutdown}
    (hr : Transition.run step (start connSize threadCount) actions = some s) :
    (s.closed ++ (s.sqlConnPool.connQueue ++ s.held)).Perm (List.range connSize) := by
  have h : Inv connSize s := Transition.run_invariant_of_step (fun _ _ _ hi ha => hi.step ha)
    (Inv.start connSize threadCount) hr
  exact h.conserved

/-- Runs in which the pool of connections is shut down when no task uses it, and no task asks for a
    connection later, are never stuck; and they are exactly the runs that leave no connection open in the
    pool, among those in which `shutdown` has returned. -/
theorem run_shuts_down (connSize threadCount : Nat) {actions : List Action} {s : ServerShutdown}
    (hr : Transition.run step (start connSize threadCount) actions = some s) :
    (Transition.Meets step ShutsQuiet (start connSize threadCount) actions → ¬ s.Stuck) ∧
      (s.threadPool.shutdown = .returned →
        (s.sqlConnPool.connQueue = [] ↔
          Transition.Meets step ShutsQuiet (start connSize threadCount) actions)) := by
  have h : Inv connSize s := Transition.run_invariant_of_step (fun _ _ _ hi ha => hi.step ha)
    (Inv.start connSize threadCount) hr
  have hiff : (s.sqlDown = true → s.Down) ↔
      Transition.Meets step ShutsQuiet (start connSize threadCount) actions :=
    Transition.run_iff_meets (fun _ _ _ hi ha => hi.step ha) (fun _ _ _ _ ha => step_down ha)
      (Inv.start connSize threadCount) (fun hd => by cases hd) hr
  constructor
  · rintro hm ⟨i, u, hjoin, hu, hask, -, -⟩
    have hdown := hiff.mpr hm (h.order (by simp [hjoin]))
    have hnone := hdown.2 u (List.mem_of_getElem? hu)
    rw [hnone] at hask
    cases hask
  · intro hret
    have hdown := h.order (by simp [hret])
    rw [← hiff, Down]
    simp [hdown, h.quiet hret]

/-- A task that uses a connection and ends, then the shutdown. -/
def idleShutdown : List Action :=
  [.threadPool .addTask, .threadPool (.worker 0), .threadPool (.worker 0), .construct 0, .getConn 0,
    .destruct 0 0, .threadPool (.worker 0), .sqlShutdown, .threadPool .shutdown, .threadPool .shutdown,
    .threadPool (.worker 0), .threadPool .shutdown, .threadPool .shutdown]

theorem run_shuts_down_idleShutdown :
    ∃ s, Transition.run step (start 1 1) idleShutdown = some s ∧ s.threadPool.shutdown = .returned ∧
      ¬ s.Stuck ∧ s.sqlConnPool.connQueue = [] := by
  obtain ⟨hstuck, hopen⟩ := @run_shuts_down 1 1 idleShutdown _ rfl
  have hm : Transition.Meets step ShutsQuiet (start 1 1) idleShutdown := by decide
  exact ⟨_, rfl, rfl, hstuck hm, (hopen rfl).mpr hm⟩

/-- A task asks for a connection after the pool has been shut down. -/
def lateRequest : List Action :=
  [.threadPool .addTask, .threadPool (.worker 0), .threadPool (.worker 0), .sqlShutdown, .construct 0,
    .threadPool .shutdown, .threadPool .shutdown]

/-- A task has a connection while the pool is shut down. -/
def lateReturn : List Action :=
  [.threadPool .addTask, .threadPool (.worker 0), .threadPool (.worker 0), .construct 0, .getConn 0,
    .sqlShutdown, .destruct 0 0, .threadPool (.worker 0), .threadPool .shutdown, .threadPool .shutdown,
    .threadPool (.worker 0), .threadPool .shutdown, .threadPool .shutdown]

/-- The first leaves `shutdown` in `join` for good, the second a connection open. -/
theorem late_use_sticks_or_leaks :
    (∃ s, Transition.run step (start 1 1) lateRequest = some s ∧ s.Stuck) ∧
      ∃ s, Transition.run step (start 1 1) lateReturn = some s ∧ s.threadPool.shutdown = .returned ∧
        s.sqlConnPool.connQueue = [0] := by
  refine ⟨⟨_, rfl, ?_⟩, _, rfl, rfl, rfl⟩
  exact ⟨0, ⟨true, []⟩, rfl, rfl, rfl, rfl, by decide⟩

end ServerShutdown

end ModularNetServer
