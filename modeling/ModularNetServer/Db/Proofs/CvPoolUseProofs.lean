import ModularNetServer.Db.CvPoolUse
import ModularNetServer.Db.Proofs.PoolUseProofs
import ModularNetServer.Library.Monitor

/-!
# Notifications of the pool

A connection that is returned wakes up a thread that waits for one. So if no thread waits when `init` is
called, then while threads are blocked there are never more connections in the queue than threads that have
been woken up and are about to take one.
-/

namespace ModularNetServer

/-- The object without the condition variable. -/
def CvSqlConnRAII.toSqlConnRAII : CvSqlConnRAII → SqlConnRAII
  | .locking => .locking
  | .blocked => .waiting
  | .woken => .locking
  | .constructed conn => .constructed conn
  | .destructed => .destructed

namespace CvPoolUse

variable {s s' : CvPoolUse} {action : Action} {i : Nat} {object : CvSqlConnRAII}

/-! ## Refinement -/

/-- The pool and the threads without the condition variable. -/
def toPoolUse (s : CvPoolUse) : PoolUse :=
  ⟨s.pool, s.opened, s.closed, s.objects.map CvSqlConnRAII.toSqlConnRAII⟩

theorem toPoolUse_setObject (s : CvPoolUse) (i : Nat) (object : CvSqlConnRAII) :
    (s.setObject i object).toPoolUse = s.toPoolUse.setObject i object.toSqlConnRAII := by
  simp [toPoolUse, setObject, PoolUse.setObject, List.map_set]

theorem getElem?_toPoolUse (hi : s.objects[i]? = some object) :
    s.toPoolUse.objects[i]? = some object.toSqlConnRAII := by
  show (s.objects.map CvSqlConnRAII.toSqlConnRAII)[i]? = some object.toSqlConnRAII
  rw [List.getElem?_map, hi]
  rfl

theorem toPoolUse_lock (s : CvPoolUse) (i : Nat) : (s.lock i).toPoolUse = s.toPoolUse.lock i := by
  unfold lock PoolUse.lock
  have hpool : s.toPoolUse.pool = s.pool := rfl
  rw [hpool]
  cases s.pool.getConn with
  | none => exact toPoolUse_setObject s i .blocked
  | some result => exact toPoolUse_setObject _ i (.constructed (some result.1))

/-- A thread that is woken up. -/
theorem wake_simulated (hi : s.objects[i]? = some .blocked) :
    Transition.run PoolUse.step s.toPoolUse [.wake i] = some (s.setObject i .woken).toPoolUse := by
  have habs := getElem?_toPoolUse hi
  simp only [Transition.run, PoolUse.step, habs, CvSqlConnRAII.toSqlConnRAII, if_true]
  rw [toPoolUse_setObject]
  rfl

theorem notifyOne_simulated {woken : Option Nat} (hr : s.notifyOne woken = some s') :
    ∃ actions, Transition.run PoolUse.step s.toPoolUse actions = some s'.toPoolUse := by
  cases woken with
  | none =>
    simp only [notifyOne] at hr
    split_ifs at hr
    cases hr
    exact ⟨[], rfl⟩
  | some i =>
    simp only [notifyOne] at hr
    split_ifs at hr with hi
    cases hr
    exact ⟨[.wake i], wake_simulated hi⟩

/-- Every step is a run without the condition variable. -/
theorem step_simulated (hr : s.step action = some s') :
    ∃ actions, Transition.run PoolUse.step s.toPoolUse actions = some s'.toPoolUse := by
  cases action with
  | init connSize =>
    cases hr
    exact ⟨[.init connSize], rfl⟩
  | construct given =>
    cases hr
    refine ⟨[.construct given], ?_⟩
    cases given <;> simp [Transition.run, PoolUse.step, toPoolUse, CvSqlConnRAII.toSqlConnRAII]
  | lock i =>
    simp only [step] at hr
    split_ifs at hr with hi
    cases hr
    have habs : s.toPoolUse.objects[i]? = some .locking := by
      rcases hi with hi | hi <;> exact getElem?_toPoolUse hi
    refine ⟨[.lock i], ?_⟩
    simp only [Transition.run, PoolUse.step, habs, if_true]
    rw [toPoolUse_lock]
  | wakeUp i =>
    simp only [step] at hr
    split_ifs at hr with hi
    cases hr
    exact ⟨[.wake i], wake_simulated hi⟩
  | destruct i woken =>
    simp only [step] at hr
    split at hr
    · rename_i conn hi
      have habs := getElem?_toPoolUse hi
      cases conn with
      | none =>
        cases woken with
        | none =>
          cases hr
          refine ⟨[.destruct i], ?_⟩
          simp only [Transition.run, PoolUse.step, habs, CvSqlConnRAII.toSqlConnRAII]
          rw [toPoolUse_setObject]
          rfl
        | some j => cases hr
      | some conn =>
        obtain ⟨later, hlater⟩ := notifyOne_simulated hr
        refine ⟨.destruct i :: later, ?_⟩
        simp only [Transition.run, PoolUse.step, habs, CvSqlConnRAII.toSqlConnRAII]
        rw [toPoolUse_setObject] at hlater
        exact hlater
    · cases hr
  | shutdown =>
    cases hr
    exact ⟨[.shutdown], rfl⟩

/-! ## Notifications -/

/-- What the thread of an object is to `m_cond`. -/
def phase : CvSqlConnRAII → Monitor.Phase
  | .blocked => .blocked
  | .woken => .woken
  | _ => .away

/-- While threads are blocked, every connection in the queue has a thread that has been woken up. -/
def Awake (s : CvPoolUse) : Prop := Monitor.Awake phase s.pool.connQueue.length 0 s.objects

theorem phase_eq_blocked (h : phase object = .blocked) : object = .blocked := by
  cases object with
  | blocked => rfl
  | _ => cases h

theorem Awake.lock (h : Awake s) (hi : s.objects[i]? = some object) (hphase : phase object ≠ .blocked) :
    Awake (s.lock i) := by
  unfold CvPoolUse.lock
  cases hq : s.pool.connQueue with
  | nil =>
    simp only [SqlConnPool.getConn, hq]
    show Monitor.Awake phase s.pool.connQueue.length 0 _
    rw [hq]
    exact Monitor.Awake.zero phase _ _
  | cons conn queue =>
    simp only [SqlConnPool.getConn, hq]
    have hawake : Monitor.Awake phase s.pool.connQueue.length 0 s.objects := h
    rw [hq, List.length_cons] at hawake
    exact hawake.take hi hphase rfl

/-- A returned connection has been put into the queue, and then a thread is notified. -/
theorem awake_notifyOne (h : Monitor.Awake phase s.pool.connQueue.length 1 s.objects) {woken : Option Nat}
    (hr : s.notifyOne woken = some s') : Awake s' := by
  cases woken with
  | none =>
    simp only [notifyOne] at hr
    split_ifs at hr with hnone
    cases hr
    apply Monitor.Awake.of_none
    rintro object hmem hphase
    rw [phase_eq_blocked hphase] at hmem
    exact hnone hmem
  | some i =>
    simp only [notifyOne] at hr
    split_ifs at hr with hi
    cases hr
    exact h.notify hi rfl rfl

theorem Awake.step (h : Awake s) (hinit : s.InitsEarly action) (hr : s.step action = some s') : Awake s' := by
  cases action with
  | init connSize =>
    cases hr
    apply Monitor.Awake.of_none
    rintro object hmem hphase
    rw [phase_eq_blocked hphase] at hmem
    exact hinit hmem
  | construct given =>
    cases hr
    apply Monitor.Awake.append h
    cases given <;> rfl
  | lock i =>
    simp only [CvPoolUse.step] at hr
    split_ifs at hr with hi
    cases hr
    rcases hi with hi | hi <;> exact h.lock hi (by decide)
  | wakeUp i =>
    simp only [CvPoolUse.step] at hr
    split_ifs at hr with hi
    cases hr
    exact Monitor.Awake.wake h hi rfl rfl
  | destruct i woken =>
    simp only [CvPoolUse.step] at hr
    split at hr
    · rename_i conn hi
      cases conn with
      | none =>
        cases woken with
        | none =>
          cases hr
          exact Monitor.Awake.go h hi rfl rfl
        | some j => cases hr
      | some conn =>
        refine awake_notifyOne ?_ hr
        show Monitor.Awake phase (s.pool.connQueue ++ [conn]).length 1 (s.objects.set i .destructed)
        rw [List.length_append]
        exact (Monitor.Awake.go h hi rfl rfl).release
    · cases hr
  | shutdown =>
    cases hr
    exact Monitor.Awake.zero phase _ _

/-! ## Runs -/

theorem woken_eq (l : List CvSqlConnRAII) : Monitor.woken phase l = l.count .woken := by
  apply List.countP_congr
  intro object _
  cases object <;> simp [phase]

/-- Where a connection is in the queue and a thread wants one, a thread can go on and get it. -/
theorem Awake.progress (h : Awake s) (hqueue : s.pool.connQueue ≠ [])
    (hwants : ∃ object ∈ s.objects, object = .locking ∨ object = .blocked ∨ object = .woken) :
    ∃ i conn, s.step (.lock i) = some (s.lock i) ∧
      (s.lock i).objects[i]? = some (.constructed (some conn)) := by
  have hready : ∃ object ∈ s.objects, object = .locking ∨ object = .woken := by
    obtain ⟨object, hmem, rfl | rfl | rfl⟩ := hwants
    · exact ⟨.locking, hmem, .inl rfl⟩
    · -- as a thread is blocked, another one has been woken up
      have hle := h (Monitor.blocked_pos hmem rfl)
      have hpos := List.length_pos_iff.mpr hqueue
      rw [woken_eq] at hle
      exact ⟨.woken, List.count_pos_iff.mp (by omega), .inr rfl⟩
    · exact ⟨.woken, hmem, .inr rfl⟩
  obtain ⟨object, hmem, hobject⟩ := hready
  obtain ⟨i, hi⟩ := List.mem_iff_getElem?.mp hmem
  obtain ⟨conn, queue, hq⟩ := List.exists_cons_of_ne_nil hqueue
  have hlock : s.objects[i]? = some .locking ∨ s.objects[i]? = some .woken := by
    rcases hobject with rfl | rfl
    · exact .inl hi
    · exact .inr hi
  refine ⟨i, conn, by simp only [CvPoolUse.step, if_pos hlock], ?_⟩
  unfold CvPoolUse.lock
  simp only [SqlConnPool.getConn, hq]
  exact List.getElem?_set_self (List.getElem?_eq_some_iff.mp hi).1

/-- **No connection lies idle**: in every run in which `init` is called while no thread is blocked, as long as a
    thread is blocked in `getConn` there are as many threads woken up as there are connections in the queue;
    where a connection is in the queue and a thread wants one, a thread can go on and gets it; and every
    connection that was opened is queued, held or closed, and that once. -/
theorem run_no_idle {actions : List Action} {s : CvPoolUse}
    (hinit : Transition.Meets step InitsEarly start actions)
    (hr : Transition.run step start actions = some s) :
    (CvSqlConnRAII.blocked ∈ s.objects → s.pool.connQueue.length ≤ s.objects.count .woken) ∧
    (s.pool.connQueue ≠ [] → (∃ object ∈ s.objects, object = .locking ∨ object = .blocked ∨ object = .woken) →
      ∃ i conn, s.step (.lock i) = some (s.lock i) ∧
        (s.lock i).objects[i]? = some (.constructed (some conn))) ∧
    s.toPoolUse.Conserved := by
  have hstart : Awake start := Monitor.Awake.zero phase 0 []
  have h : Awake s := Transition.run_invariant (fun _ _ _ hi hc ha => hi.step hc ha) hstart hinit hr
  obtain ⟨actions', habs⟩ := Transition.run_simulation toPoolUse (fun _ _ _ ha => step_simulated ha) hr
  refine ⟨?_, h.progress, ?_⟩
  · intro hblocked
    rw [← woken_eq]
    exact h (Monitor.blocked_pos hblocked rfl)
  · exact Transition.run_invariant_of_step (fun _ _ _ hi ha => hi.step ha) PoolUse.Conserved.start habs

/-- Two threads wait for one connection, which a third one returns. -/
def oneReturned : List Action :=
  [.init 1, .construct true, .lock 0, .construct true, .construct true, .lock 1, .lock 2,
    .destruct 0 (some 2)]

theorem run_no_idle_oneReturned :
    ∃ s, Transition.run step start oneReturned = some s ∧ CvSqlConnRAII.blocked ∈ s.objects ∧
      (CvSqlConnRAII.blocked ∈ s.objects → s.pool.connQueue.length ≤ s.objects.count .woken) ∧
      (s.pool.connQueue ≠ [] →
        (∃ object ∈ s.objects, object = .locking ∨ object = .blocked ∨ object = .woken) →
        ∃ i conn, s.step (.lock i) = some (s.lock i) ∧
          (s.lock i).objects[i]? = some (.constructed (some conn))) ∧
      s.toPoolUse.Conserved :=
  ⟨_, rfl, by decide, run_no_idle (by decide : Transition.Meets step InitsEarly start oneReturned) rfl⟩

/-- A thread that has waited since before `init` is not told of the connections. -/
example : ∃ s, Transition.run step start [.construct true, .lock 0, .init 2] = some s ∧
    s.pool.connQueue = [0, 1] ∧ s.objects = [.blocked] := ⟨_, rfl, by decide⟩

end CvPoolUse

end ModularNetServer
