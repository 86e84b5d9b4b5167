import ModularNetServer.Library.Monitor
import ModularNetServer.ThreadPool.CvThreadPool
import ModularNetServer.ThreadPool.Proofs.ThreadPoolProofs

/-!
# Notifications of the thread pool

With its condition variable the thread pool behaves as one whose workers look at the queue whenever they like,
and it forgets no task: while a worker is blocked, each queued task has a worker that has been woken up, or a
call of `addTask` that is about to notify. After `notify_all` no worker is ever blocked again.
-/

namespace ModularNetServer

/-! ## Refinement -/

/-- The worker without the condition variable. -/
def CvWorker.toWorker : CvWorker → Worker
  | .test => .test
  | .locking => .waiting
  | .blocked => .waiting
  | .woken => .waiting
  | .running task => .running task
  | .exited => .exited

/-- The call of `shutdown` without the notification. -/
def CvShutdown.toShutdown : CvShutdown → Shutdown
  | .notCalled => .notCalled
  | .called => .called
  | .notifying => .joining 0
  | .joining i => .joining i
  | .returned => .returned

namespace CvThreadPool

variable {s s' : CvThreadPool} {action : Action} {i : Nat} {w w' : CvWorker}

/-- The thread pool without the condition variable. -/
def toThreadPool (s : CvThreadPool) : ThreadPool where
  tasks := s.tasks
  stop := s.stop
  threads := s.threads.map CvWorker.toWorker
  shutdown := s.shutdown.toShutdown
  added := s.added
  completed := s.completed
  before := s.before
  taken := s.taken
  executed := s.executed

theorem toThreadPool_start (threadCount : Nat) :
    (start threadCount).toThreadPool = ThreadPool.start threadCount := by
  simp [toThreadPool, start, ThreadPool.start, CvWorker.toWorker, CvShutdown.toShutdown]

/-- A worker that only notices something about notifications. -/
theorem toThreadPool_setWorker_eq (hw : s.threads[i]? = some w) (h : w'.toWorker = w.toWorker) :
    (s.setWorker i w').toThreadPool = s.toThreadPool := by
  have hsame : (s.threads.map CvWorker.toWorker)[i]? = some w'.toWorker := by
    rw [List.getElem?_map, hw, Option.map_some, h]
  unfold toThreadPool setWorker
  dsimp only
  rw [List.map_set, (List.getElem?_eq_some_iff.mp hsame).2.symm, List.set_getElem_self]

theorem toThreadPool_wakeUp (hw : s.threads[i]? = some .blocked) :
    (s.setWorker i .woken).toThreadPool = s.toThreadPool := toThreadPool_setWorker_eq hw rfl

theorem toThreadPool_setWorker (s : CvThreadPool) (i : Nat) (w : CvWorker) :
    (s.setWorker i w).toThreadPool = s.toThreadPool.setWorker i w.toWorker := by
  simp [toThreadPool, setWorker, ThreadPool.setWorker, List.map_set]

theorem toThreadPool_wake (s : CvThreadPool) : s.threads.map (CvWorker.toWorker ∘ CvWorker.wake) =
    s.threads.map CvWorker.toWorker := by
  apply List.map_congr_left
  intro w _
  cases w <;> rfl

/-! ## Steps -/

/-- What the critical section of `worker` comes to: the worker is over, it blocks, or it takes the first
    task. -/
theorem wait_cases (s : CvThreadPool) (i : Nat) :
    (s.tasks = [] ∧ s.stop = true ∧ s.wait i = s.setWorker i .exited) ∨
    (s.tasks = [] ∧ s.stop = false ∧ s.wait i = s.setWorker i .blocked) ∨
    ∃ task tasks, s.tasks = task :: tasks ∧
      s.wait i = { s with tasks := tasks, taken := s.taken ++ [task] }.setWorker i (.running task) := by
  unfold wait
  split
  · rename_i hempty
    cases hstop : s.stop with
    | true => exact .inl ⟨hempty, rfl, rfl⟩
    | false => exact .inr (.inl ⟨hempty, rfl, rfl⟩)
  · rename_i task tasks htasks
    exact .inr (.inr ⟨task, tasks, htasks, rfl⟩)

/-- What a worker can do: it goes on without the condition variable, or enters its critical section. -/
theorem worker_cases (hr : s.worker i w = some s') :
    (w = .test ∧ s' = s.setWorker i (if s.stop then .exited else .locking)) ∨
    ((w = .locking ∨ w = .woken) ∧ s' = s.wait i) ∨
    ∃ task, w = .running task ∧ s' = { s with executed := s.executed ++ [task] }.setWorker i .test := by
  cases w with
  | test =>
    cases hr
    exact .inl ⟨rfl, rfl⟩
  | locking =>
    cases hr
    exact .inr (.inl ⟨.inl rfl, rfl⟩)
  | blocked => cases hr
  | woken =>
    cases hr
    exact .inr (.inl ⟨.inr rfl, rfl⟩)
  | running task =>
    cases hr
    exact .inr (.inr ⟨task, rfl, rfl⟩)
  | exited => cases hr

theorem getElem?_toThreadPool (hw : s.threads[i]? = some w) :
    s.toThreadPool.threads[i]? = some w.toWorker := by
  show (s.threads.map CvWorker.toWorker)[i]? = some w.toWorker
  rw [List.getElem?_map, hw]
  rfl

/-- The critical section is a step of the pool without the condition variable, or nothing to it. -/
theorem wait_simulated (hw : s.threads[i]? = some w) (hwait : w = .locking ∨ w = .woken) :
    ∃ actions, Transition.run ThreadPool.step s.toThreadPool actions = some (s.wait i).toThreadPool := by
  have hworker : w.toWorker = .waiting := by
    rcases hwait with rfl | rfl <;> rfl
  have habs := getElem?_toThreadPool hw
  rw [hworker] at habs
  rcases wait_cases s i with ⟨hempty, hstop, heq⟩ | ⟨hempty, hstop, heq⟩ | ⟨task, tasks, htasks, heq⟩
  · refine ⟨[.worker i], ?_⟩
    have hempty' : s.toThreadPool.tasks = [] := hempty
    have hstop' : s.toThreadPool.stop = true := hstop
    simp only [Transition.run, ThreadPool.step, habs, ThreadPool.worker, hempty', hstop', if_true]
    rw [heq, toThreadPool_setWorker]
    rfl
  · refine ⟨[], ?_⟩
    rw [heq, toThreadPool_setWorker_eq hw (by rw [hworker]; rfl)]
    rfl
  · refine ⟨[.worker i], ?_⟩
    have htasks' : s.toThreadPool.tasks = task :: tasks := htasks
    simp only [Transition.run, ThreadPool.step, habs, ThreadPool.worker, htasks']
    rw [heq, toThreadPool_setWorker]
    rfl

/-- Every step is a run of the pool without the condition variable, of one step or none. -/
theorem step_simulated (hr : s.step action = some s') :
    ∃ actions, Transition.run ThreadPool.step s.toThreadPool actions = some s'.toThreadPool := by
  have hwoken : ∀ {i}, s.threads[i]? = some .blocked →
      ∃ actions, Transition.run ThreadPool.step s.toThreadPool actions = some (s.setWorker i .woken).toThreadPool :=
    fun hi => ⟨[], by rw [toThreadPool_wakeUp hi]; rfl⟩
  cases action with
  | addTask =>
    cases hr
    exact ⟨[.addTask], rfl⟩
  | notifyOne task i =>
    simp only [step] at hr
    split at hr
    · cases i with
      | none =>
        simp only [notifyOne] at hr
        split at hr
        · cases hr
        · cases hr
          exact ⟨[], rfl⟩
      | some i =>
        simp only [notifyOne] at hr
        split at hr
        · rename_i hi
          cases hr
          exact hwoken hi
        · cases hr
    · cases hr
  | addReturn task =>
    simp only [step] at hr
    split at hr
    · rename_i hlt
      cases hr
      refine ⟨[.addReturn task], ?_⟩
      have hreturn : task < s.toThreadPool.added ∧ task ∉ s.toThreadPool.completed := ⟨hlt.1, hlt.2.2⟩
      simp only [Transition.run, ThreadPool.step, if_pos hreturn]
      rfl
    · cases hr
  | worker i =>
    simp only [step] at hr
    split at hr
    · cases hr
    · rename_i w hw
      have habs := getElem?_toThreadPool hw
      rcases worker_cases hr with ⟨rfl, rfl⟩ | ⟨hwait, rfl⟩ | ⟨task, rfl, rfl⟩
      · refine ⟨[.worker i], ?_⟩
        simp only [Transition.run, ThreadPool.step, habs, CvWorker.toWorker, ThreadPool.worker]
        rw [toThreadPool_setWorker]
        cases hstop : s.stop with
        | true => simp [toThreadPool, hstop, CvWorker.toWorker]
        | false => simp [toThreadPool, hstop, CvWorker.toWorker]
      · exact wait_simulated hw hwait
      · refine ⟨[.worker i], ?_⟩
        simp only [Transition.run, ThreadPool.step, habs, CvWorker.toWorker, ThreadPool.worker]
        rw [toThreadPool_setWorker]
        rfl
  | wakeUp i =>
    simp only [step] at hr
    split at hr
    · rename_i hi
      cases hr
      exact hwoken hi
    · cases hr
  | shutdown =>
    simp only [step, shutdownStep] at hr
    split at hr
    · rename_i hcall
      cases hr
      refine ⟨[.shutdown], ?_⟩
      simp [Transition.run, ThreadPool.step, ThreadPool.shutdownStep, toThreadPool, hcall, CvShutdown.toShutdown]
    · rename_i hcall
      cases hr
      refine ⟨[.shutdown], ?_⟩
      simp [Transition.run, ThreadPool.step, ThreadPool.shutdownStep, toThreadPool, hcall, CvShutdown.toShutdown]
    · rename_i hcall
      cases hr
      refine ⟨[], ?_⟩
      simp only [Transition.run, toThreadPool, hcall, CvShutdown.toShutdown, List.map_map, toThreadPool_wake]
    · rename_i k hjoin
      have hshut : s.toThreadPool.shutdown = .joining k := by
        simp only [toThreadPool, hjoin, CvShutdown.toShutdown]
      have hthreads : s.toThreadPool.threads[k]? = s.threads[k]?.map CvWorker.toWorker := List.getElem?_map ..
      split at hr
      · rename_i hend
        cases hr
        refine ⟨[.shutdown], ?_⟩
        simp only [Transition.run, ThreadPool.step, ThreadPool.shutdownStep, hshut, hthreads, hend]
        rfl
      · rename_i hexit
        cases hr
        refine ⟨[.shutdown], ?_⟩
        simp only [Transition.run, ThreadPool.step, ThreadPool.shutdownStep, hshut, hthreads, hexit]
        rfl
      · cases hr
    · cases hr

/-! ## Notifications -/

/-- What a worker is to `m_cv`. -/
def phase : CvWorker → Monitor.Phase
  | .blocked => .blocked
  | .woken => .woken
  | _ => .away

/-- Has `shutdown` notified? -/
def hasNotified (s : CvThreadPool) : Bool :=
  match s.shutdown with
  | .notCalled => false
  | .called => false
  | .notifying => false
  | .joining _ => true
  | .returned => true

/-- What every step keeps. -/
structure Inv (s : CvThreadPool) : Prop where
  awake : Monitor.Awake phase s.tasks.length s.notifying.length s.threads
  stop : s.shutdown ≠ .notCalled → s.shutdown ≠ .called → s.stop = true
  notified : s.hasNotified = true → ∀ w ∈ s.threads, phase w ≠ .blocked

theorem inv_start (threadCount : Nat) : Inv (start threadCount) where
  awake := Monitor.Awake.zero phase _ _
  stop := by simp [start]
  notified := by simp [hasNotified, start]

theorem Inv.stop_of_notified (h : Inv s) (hn : s.hasNotified = true) : s.stop = true := by
  unfold hasNotified at hn
  apply h.stop
  · intro hcall
    simp [hcall] at hn
  · intro hcall
    simp [hcall] at hn

/-- A worker does not become blocked. -/
theorem notified_setWorker (h : ∀ w ∈ s.threads, phase w ≠ .blocked) (hw : phase w ≠ .blocked) (i : Nat) :
    ∀ w' ∈ s.threads.set i w, phase w' ≠ .blocked := by
  intro w' hw'
  rcases List.mem_or_eq_of_mem_set hw' with hmem | rfl
  · exact h w' hmem
  · exact hw

theorem Inv.wait (h : Inv s) (hi : s.threads[i]? = some w) (hw : phase w ≠ .blocked) : Inv (s.wait i) := by
  have hawake := h.awake
  rcases wait_cases s i with ⟨hempty, -, heq⟩ | ⟨hempty, hstop, heq⟩ | ⟨task, tasks, htasks, heq⟩
  · rw [heq]
    refine ⟨?_, h.stop, fun hn => notified_setWorker (h.notified hn) (by decide) i⟩
    show Monitor.Awake phase s.tasks.length _ _
    rw [hempty]
    exact Monitor.Awake.zero phase _ _
  · have hnot : ¬ s.hasNotified = true := by
      intro hn
      rw [h.stop_of_notified hn] at hstop
      cases hstop
    rw [heq]
    refine ⟨?_, h.stop, fun hn => absurd hn hnot⟩
    show Monitor.Awake phase s.tasks.length _ _
    rw [hempty]
    exact Monitor.Awake.zero phase _ _
  · rw [htasks, List.length_cons] at hawake
    rw [heq]
    refine ⟨hawake.take hi hw rfl, h.stop, fun hn => notified_setWorker (h.notified hn) ?_ i⟩
    exact Monitor.Phase.noConfusion

theorem Inv.setWoken (h : Inv s) {notifying : List Nat} (hi : s.threads[i]? = some .blocked)
    (hlen : s.notifying.length ≤ notifying.length + 1) :
    Inv ({ s with notifying := notifying }.setWorker i .woken) := by
  have hmore : Monitor.Awake phase s.tasks.length (notifying.length + 1) s.threads := by
    intro hpos
    have hle := h.awake hpos
    omega
  exact ⟨hmore.notify hi rfl rfl, h.stop, fun hn => notified_setWorker (h.notified hn) (by decide) i⟩

theorem Inv.shutdownStep (h : Inv s) (hr : s.shutdownStep = some s') : Inv s' := by
  unfold CvThreadPool.shutdownStep at hr
  split at hr
  · cases hr
    refine ⟨h.awake, fun _ hcalled => absurd rfl hcalled, ?_⟩
    exact Bool.noConfusion
  · cases hr
    refine ⟨h.awake, fun _ _ => rfl, ?_⟩
    exact Bool.noConfusion
  · rename_i hcall
    cases hr
    have hnone : ∀ w ∈ s.threads.map CvWorker.wake, phase w ≠ .blocked := by
      intro w hw
      obtain ⟨w', -, rfl⟩ := List.mem_map.mp hw
      cases w' <;> exact Monitor.Phase.noConfusion
    refine ⟨Monitor.Awake.of_none hnone, fun _ _ => ?_, fun _ => hnone⟩
    exact h.stop (by simp [hcall]) (by simp [hcall])
  · rename_i k hjoin
    have hn : s.hasNotified = true := by simp [hasNotified, hjoin]
    have hstop := h.stop_of_notified hn
    split at hr
    · cases hr
      exact ⟨h.awake, fun _ _ => hstop, fun _ => h.notified hn⟩
    · cases hr
      exact ⟨h.awake, fun _ _ => hstop, fun _ => h.notified hn⟩
    · cases hr
  · cases hr

theorem Inv.step (h : Inv s) (hr : s.step action = some s') : Inv s' := by
  cases action with
  | addTask =>
    cases hr
    refine ⟨?_, h.stop, h.notified⟩
    show Monitor.Awake phase (s.tasks ++ [s.added]).length (s.notifying.length + 1) s.threads
    rw [List.length_append]
    exact h.awake.release
  | notifyOne task i =>
    simp only [CvThreadPool.step] at hr
    split at hr
    · rename_i hmem
      have hlen : s.notifying.length = (s.notifying.erase task).length + 1 := by
        rw [List.length_erase_of_mem hmem]
        have hpos := List.length_pos_of_mem hmem
        omega
      cases i with
      | none =>
        simp only [notifyOne] at hr
        split at hr
        · cases hr
        · rename_i hnone
          cases hr
          refine ⟨Monitor.Awake.of_none ?_, h.stop, h.notified⟩
          intro w hw hphase
          cases w with
          | blocked => exact hnone hw
          | _ => cases hphase
      | some i =>
        simp only [notifyOne] at hr
        split at hr
        · rename_i hi
          cases hr
          exact h.setWoken hi (Nat.le_of_eq hlen)
        · cases hr
    · cases hr
  | addReturn task =>
    simp only [CvThreadPool.step] at hr
    split at hr
    · cases hr
      exact ⟨h.awake, h.stop, h.notified⟩
    · cases hr
  | worker i =>
    simp only [CvThreadPool.step] at hr
    split at hr
    · cases hr
    · rename_i w hw
      rcases worker_cases hr with ⟨rfl, rfl⟩ | ⟨hwait, rfl⟩ | ⟨task, rfl, rfl⟩
      · have hphase : phase (if s.stop then .exited else .locking) = .away := by
          split <;> rfl
        refine ⟨h.awake.go hw rfl hphase, h.stop, fun hn => notified_setWorker (h.notified hn) ?_ i⟩
        rw [hphase]
        exact Monitor.Phase.noConfusion
      · apply h.wait hw
        rcases hwait with rfl | rfl <;> exact Monitor.Phase.noConfusion
      · exact ⟨h.awake.go hw rfl rfl, h.stop, fun hn => notified_setWorker (h.notified hn) (by decide) i⟩
  | wakeUp i =>
    simp only [CvThreadPool.step] at hr
    split at hr
    · rename_i hi
      cases hr
      exact h.setWoken hi (Nat.le_succ _)
    · cases hr
  | shutdown => exact h.shutdownStep hr

/-! ## Runs -/

theorem woken_eq (l : List CvWorker) : Monitor.woken phase l = l.count .woken := by
  apply List.countP_congr
  intro w _
  cases w <;> simp [phase]

/-- A worker that is not blocked and not over can go on. -/
theorem worker_isSome (hw : s.threads[i]? = some w) (hblocked : w ≠ .blocked) (hexited : w ≠ .exited) :
    (s.step (.worker i)).isSome = true := by
  simp only [step, hw]
  cases w with
  | blocked => exact absurd rfl hblocked
  | exited => exact absurd rfl hexited
  | _ => rfl

/-- A call of `addTask` that is to notify can do so. -/
theorem notifyOne_isSome {task : Nat} (htask : task ∈ s.notifying) :
    ∃ i, (s.step (.notifyOne task i)).isSome = true := by
  by_cases hblocked : CvWorker.blocked ∈ s.threads
  · obtain ⟨i, hi⟩ := List.mem_iff_getElem?.mp hblocked
    refine ⟨some i, ?_⟩
    simp only [step, if_pos htask, notifyOne, hi, if_true]
    rfl
  · refine ⟨none, ?_⟩
    simp only [step, if_pos htask, notifyOne, if_neg hblocked]
    rfl

/-- Where tasks are queued and not all workers are over, a worker or a notification can go on. -/
theorem Inv.progress (h : Inv s) (htasks : s.tasks ≠ []) (hw : ∃ w ∈ s.threads, w ≠ .exited) :
    (∃ i, (s.step (.worker i)).isSome = true) ∨ ∃ task i, (s.step (.notifyOne task i)).isSome = true := by
  by_cases hready : ∃ w ∈ s.threads, w ≠ .blocked ∧ w ≠ .exited
  · obtain ⟨w, hmem, hblocked, hexited⟩ := hready
    obtain ⟨i, hi⟩ := List.mem_iff_getElem?.mp hmem
    exact .inl ⟨i, worker_isSome hi hblocked hexited⟩
  · -- all workers that are left are blocked, so the notification is still to come
    simp only [not_exists, not_and, not_not] at hready
    obtain ⟨w, hmem, hexited⟩ := hw
    have hblocked : phase w = .blocked := by
      by_cases hb : w = .blocked
      · rw [hb]
        rfl
      · exact absurd (hready w hmem hb) hexited
    have hzero : s.threads.count .woken = 0 := by
      apply List.count_eq_zero.mpr
      intro hwoken
      cases hready _ hwoken (by decide)
    have hle := h.awake (Monitor.blocked_pos hmem hblocked)
    rw [woken_eq, hzero, Nat.zero_add] at hle
    have hpos := List.length_pos_iff.mpr htasks
    obtain ⟨task, htask⟩ := List.exists_mem_of_length_pos (Nat.lt_of_lt_of_le hpos hle)
    obtain ⟨i, hi⟩ := notifyOne_isSome htask
    exact .inr ⟨task, i, hi⟩

/-- **No task is forgotten**: in every run, while a worker is blocked there are as many woken workers and calls
    of `addTask` about to notify as there are queued tasks; where tasks are queued and a worker is not over,
    the pool goes on without further tasks; and once `shutdown` has notified, no worker is blocked. -/
theorem run_awake (threadCount : Nat) {actions : List Action} {s : CvThreadPool}
    (hr : Transition.run step (start threadCount) actions = some s) :
    (CvWorker.blocked ∈ s.threads → s.tasks.length ≤ s.threads.count .woken + s.notifying.length) ∧
    (s.tasks ≠ [] → (∃ w ∈ s.threads, w ≠ .exited) →
      (∃ i, (s.step (.worker i)).isSome = true) ∨ ∃ task i, (s.step (.notifyOne task i)).isSome = true) ∧
    (s.hasNotified = true → CvWorker.blocked ∉ s.threads) := by
  have h : Inv s := Transition.run_invariant_of_step (fun _ _ _ hi ha => hi.step ha) (inv_start threadCount) hr
  refine ⟨?_, h.progress, ?_⟩
  · intro hblocked
    rw [← woken_eq]
    exact h.awake (Monitor.blocked_pos hblocked rfl)
  · intro hn hblocked
    exact h.notified hn _ hblocked rfl

/-- One worker blocks; two tasks are enqueued, and the first call notifies. -/
def sleepingWorker : List Action :=
  [.worker 0, .worker 0, .addTask, .addTask, .notifyOne 0 (some 0), .worker 0, .addReturn 0]

theorem run_awake_sleepingWorker :
    ∃ s, Transition.run step (start 1) sleepingWorker = some s ∧ s.tasks = [1] ∧
      (CvWorker.blocked ∈ s.threads → s.tasks.length ≤ s.threads.count .woken + s.notifying.length) ∧
      (s.tasks ≠ [] → (∃ w ∈ s.threads, w ≠ .exited) →
        (∃ i, (s.step (.worker i)).isSome = true) ∨ ∃ task i, (s.step (.notifyOne task i)).isSome = true) ∧
      (s.hasNotified = true → CvWorker.blocked ∉ s.threads) :=
  ⟨_, rfl, rfl, @run_awake 1 sleepingWorker _ rfl⟩

/-- **The condition variable adds nothing**: every run leads to a state that the pool whose workers look at the
    queue whenever they like can reach; so tasks are taken in the order of enqueueing, and none is run twice. -/
theorem run_refines (threadCount : Nat) {actions : List Action} {s : CvThreadPool}
    (hr : Transition.run step (start threadCount) actions = some s) :
    (∃ actions', Transition.run ThreadPool.step (ThreadPool.start threadCount) actions' =
      some s.toThreadPool) ∧
    s.taken ++ s.tasks = List.range s.added ∧ (s.executed ++ s.toThreadPool.running).Nodup := by
  obtain ⟨actions', habs⟩ := Transition.run_simulation toThreadPool (fun _ _ _ ha => step_simulated ha) hr
  rw [toThreadPool_start] at habs
  have h : ThreadPool.Inv s.toThreadPool := Transition.run_invariant_of_step (fun _ _ _ hi ha => hi.step ha)
    (ThreadPool.Inv.start threadCount) habs
  refine ⟨⟨actions', habs⟩, h.fifo, ?_⟩
  exact h.runs.nodup_iff.mpr (List.nodup_append.mp h.nodup).1

theorem run_refines_sleepingWorker :
    ∃ s, Transition.run step (start 1) sleepingWorker = some s ∧ s.taken = [0] ∧
      (∃ actions', Transition.run ThreadPool.step (ThreadPool.start 1) actions' = some s.toThreadPool) ∧
      s.taken ++ s.tasks = List.range s.added ∧ (s.executed ++ s.toThreadPool.running).Nodup :=
  ⟨_, rfl, rfl, @run_refines 1 sleepingWorker _ rfl⟩

end CvThreadPool

end ModularNetServer
