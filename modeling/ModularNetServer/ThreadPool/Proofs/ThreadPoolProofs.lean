import ModularNetServer.Library.Slots
import ModularNetServer.ThreadPool.ThreadPool

/-!
# What the thread pool executes

Tasks are taken in the order of enqueueing, once each. What happens to those that are still queued when
`m_stop` is set depends on the workers that have passed the test of their loop by then: each of them
takes one more task, and no other worker takes any.
-/

namespace ModularNetServer

namespace ThreadPool

variable {s s' : ThreadPool} {action : Action} {i : Nat}

/-- What holds between steps. -/
structure Inv (s : ThreadPool) : Prop where
  fifo : s.taken ++ s.tasks = List.range s.added
  runs : (s.executed ++ s.running).Perm s.taken
  completed : ∀ task ∈ s.completed, task < s.added
  before : ∀ task ∈ s.before, task < s.added
  stop : s.stop = true ↔ s.shutdown ≠ .notCalled ∧ s.shutdown ≠ .called
  joined : ∀ i, s.shutdown = .joining i → ∀ j < i, s.threads[j]? = some .exited
  returned : s.shutdown = .returned → ∀ j < s.threads.length, s.threads[j]? = some .exited

theorem Inv.start (threadCount : Nat) : Inv (start threadCount) where
  fifo := rfl
  runs := by
    have hrun : (ThreadPool.start threadCount).running = [] := by
      simp [running, ThreadPool.start, Worker.task]
    rw [hrun]
    exact List.Perm.refl _
  completed := by simp [ThreadPool.start]
  before := by simp [ThreadPool.start]
  stop := by simp [ThreadPool.start]
  joined := by simp [ThreadPool.start]
  returned := by simp [ThreadPool.start]

/-! ## Steps -/

/-- What a worker can do: it goes on to another place, or takes the first task, or ends its task. -/
theorem worker_cases {w : Worker} (hr : s.worker i w = some s') :
    (∃ w', s' = s.setWorker i w' ∧ w.task = [] ∧ w'.task = [] ∧
      ((w = .test ∧ w' = if s.stop then .exited else .waiting) ∨
        (w = .waiting ∧ w' = .exited ∧ s.tasks = [] ∧ s.stop = true))) ∨
    (∃ task tasks, w = .waiting ∧ s.tasks = task :: tasks ∧
      s' = { s with tasks := tasks, taken := s.taken ++ [task] }.setWorker i (.running task)) ∨
    ∃ task, w = .running task ∧
      s' = { s with executed := s.executed ++ [task] }.setWorker i .test := by
  cases w with
  | test =>
    cases hr
    refine .inl ⟨_, rfl, rfl, ?_, .inl ⟨rfl, rfl⟩⟩
    split <;> rfl
  | waiting =>
    simp only [worker] at hr
    split at hr
    · rename_i hempty
      split at hr
      · rename_i hstop
        cases hr
        exact .inl ⟨.exited, rfl, rfl, rfl, .inr ⟨rfl, rfl, hempty, hstop⟩⟩
      · cases hr
    · rename_i task tasks htasks
      cases hr
      exact .inr (.inl ⟨task, tasks, rfl, htasks, rfl⟩)
  | running task =>
    cases hr
    exact .inr (.inr ⟨task, rfl, rfl⟩)
  | exited => cases hr

theorem worker_ne_exited {w : Worker} (hr : s.worker i w = some s') : w ≠ .exited := by
  rintro rfl
  cases hr

/-- A step of a worker changes where this worker is. -/
theorem step_worker_threads (hr : s.step (.worker i) = some s') :
    s'.shutdown = s.shutdown ∧ ∃ w, s'.threads = s.threads.set i w := by
  simp only [step] at hr
  split at hr
  · cases hr
  · rcases worker_cases hr with ⟨w', rfl, -⟩ | ⟨task, tasks, -, -, rfl⟩ | ⟨task, -, rfl⟩
    · exact ⟨rfl, w', rfl⟩
    · exact ⟨rfl, .running task, rfl⟩
    · exact ⟨rfl, .test, rfl⟩

/-- No other step moves a worker. -/
theorem step_threads (ha : ∀ i, action ≠ .worker i) (hr : s.step action = some s') :
    s'.threads = s.threads := by
  cases action with
  | addTask =>
    cases hr
    rfl
  | addReturn task =>
    simp only [step] at hr
    split at hr
    · cases hr
      rfl
    · cases hr
  | worker i => exact absurd rfl (ha i)
  | shutdown =>
    simp only [step, shutdownStep] at hr
    split at hr
    · cases hr
      rfl
    · cases hr
      rfl
    · split at hr
      · cases hr
        rfl
      · cases hr
        rfl
      · cases hr
    · cases hr

/-- `shutdown` goes on in its own steps only. -/
theorem step_shutdown (ha : action ≠ .shutdown) (hr : s.step action = some s') :
    s'.shutdown = s.shutdown := by
  cases action with
  | addTask =>
    cases hr
    rfl
  | addReturn task =>
    simp only [step] at hr
    split at hr
    · cases hr
      rfl
    · cases hr
  | worker i => exact (step_worker_threads hr).1
  | shutdown => exact absurd rfl ha

/-- A worker goes on, and the queue and the histories change. -/
theorem Inv.setWorker (h : Inv s) {w : Worker} (hw : s.threads[i]? = some w) (hne : w ≠ .exited)
    (w' : Worker) {tasks taken executed : List Nat} (hfifo : taken ++ tasks = List.range s.added)
    (hruns : (executed ++ (s.threads.set i w').flatMap Worker.task).Perm taken) :
    Inv ({ s with tasks := tasks, taken := taken, executed := executed }.setWorker i w') where
  fifo := hfifo
  runs := hruns
  completed := h.completed
  before := h.before
  stop := h.stop
  joined := by
    intro k hk j hj
    exact Slots.getElem?_set_of_fixed hw (h.joined k hk j hj) hne w'
  returned := by
    intro hret j hj
    apply Slots.getElem?_set_of_fixed hw (h.returned hret j ?_) hne w'
    simpa [ThreadPool.setWorker] using hj

theorem Inv.worker (h : Inv s) {w : Worker} (hw : s.threads[i]? = some w)
    (hr : s.worker i w = some s') : Inv s' := by
  have hne := worker_ne_exited hr
  rcases worker_cases hr with ⟨w', rfl, ht, ht', -⟩ | ⟨task, tasks, rfl, htasks, rfl⟩ | ⟨task, rfl, rfl⟩
  · apply h.setWorker hw hne w' h.fifo
    have hp := Slots.flatMap_set_perm Worker.task hw w'
    rw [ht, ht'] at hp
    exact (hp.append_left s.executed).trans h.runs
  · apply h.setWorker hw hne
    · rw [← h.fifo, htasks, List.append_assoc]
      rfl
    · have hp := Slots.flatMap_set_perm Worker.task hw (.running task)
      have hmid := (hp.append_left s.executed).trans List.perm_middle
      exact hmid.trans ((h.runs.cons task).trans (List.perm_append_singleton task s.taken).symm)
  · apply h.setWorker hw hne .test h.fifo
    have hp := Slots.flatMap_set_perm Worker.task hw .test
    rw [List.append_assoc]
    exact (hp.append_left s.executed).trans h.runs

theorem Inv.shutdownStep (h : Inv s) (hr : s.shutdownStep = some s') : Inv s' := by
  unfold ThreadPool.shutdownStep at hr
  split at hr
  · rename_i hcall
    cases hr
    have hstop : ¬ s.stop = true := by simp [h.stop, hcall]
    exact { h with
      before := h.completed
      stop := iff_of_false hstop (by simp)
      joined := by simp
      returned := by simp }
  · cases hr
    exact { h with
      stop := by simp
      joined := by
        intro i hi j hj
        cases hi
        omega
      returned := by simp }
  · rename_i i hjoin
    have hstop : s.stop = true := by simp [h.stop, hjoin]
    split at hr
    · rename_i hend
      cases hr
      refine { h with stop := iff_of_true hstop (by simp), joined := by simp, returned := ?_ }
      intro _ j hj
      apply h.joined i hjoin
      have hlen := List.getElem?_eq_none_iff.mp hend
      exact Nat.lt_of_lt_of_le hj hlen
    · rename_i hexit
      cases hr
      refine { h with stop := iff_of_true hstop (by simp), joined := ?_, returned := by simp }
      intro k hk j hj
      cases hk
      rcases Nat.lt_succ_iff_lt_or_eq.mp hj with hlt | rfl
      · exact h.joined i hjoin j hlt
      · exact hexit
    · cases hr
  · cases hr

theorem Inv.step (h : Inv s) (hr : s.step action = some s') : Inv s' := by
  cases action with
  | addTask =>
    cases hr
    refine { h with fifo := ?_, completed := ?_, before := ?_ }
    · show s.taken ++ (s.tasks ++ [s.added]) = List.range (s.added + 1)
      rw [← List.append_assoc, h.fifo, List.range_succ]
    · intro task ht
      exact Nat.lt_succ_of_lt (h.completed task ht)
    · intro task ht
      exact Nat.lt_succ_of_lt (h.before task ht)
  | addReturn task =>
    simp only [ThreadPool.step] at hr
    split at hr
    · rename_i hlt
      cases hr
      refine { h with completed := ?_ }
      intro t ht
      rcases List.mem_cons.mp ht with rfl | ht
      · exact hlt.1
      · exact h.completed t ht
    · cases hr
  | worker i =>
    simp only [ThreadPool.step] at hr
    split at hr
    · cases hr
    · rename_i w hw
      exact h.worker hw hr
  | shutdown => exact h.shutdownStep hr

/-! ## After `m_stop` is set -/

/-- No task is taken twice, or taken and still queued. -/
theorem Inv.nodup (h : Inv s) : (s.taken ++ s.tasks).Nodup := by
  rw [h.fifo]
  exact List.nodup_range

/-- A worker that takes the first task leaves one worker less for the others. -/
theorem drains_take {before tasks : List Nat} {task n : Nat} (hn : (task :: tasks).Nodup) :
    (∀ t ∈ before, t ∈ tasks → t ∈ tasks.take n) ↔
      ∀ t ∈ before, t ∈ task :: tasks → t ∈ (task :: tasks).take (n + 1) := by
  have hnot := (List.nodup_cons.mp hn).1
  apply forall_congr'
  intro t
  apply imp_congr_right
  intro _
  rw [List.take_succ_cons, List.mem_cons, List.mem_cons]
  constructor
  · rintro h (rfl | ht)
    · exact .inl rfl
    · exact .inr (h ht)
  · intro h ht
    rcases h (.inr ht) with rfl | h
    · exact absurd ht hnot
    · exact h

/-- Once `m_stop` is set, no step changes which of the tasks added before are going to be taken. -/
theorem Inv.drains_worker (h : Inv s) {w : Worker} (hw : s.threads[i]? = some w) (hstop : s.stop = true)
    (hr : s.worker i w = some s') : s'.Drains ↔ s.Drains := by
  have hcount := fun w' => Slots.count_set hw w' .waiting
  rcases worker_cases hr with ⟨w', rfl, -, -, hcase⟩ | ⟨task, tasks, rfl, htasks, rfl⟩ | ⟨task, rfl, rfl⟩
  · rcases hcase with ⟨rfl, rfl⟩ | ⟨-, -, hempty, -⟩
    · have hw' := hcount .exited
      simp only [reduceCtorEq, if_false, Nat.add_zero] at hw'
      simp [Drains, waiting, ThreadPool.setWorker, hstop, hw']
    · simp [Drains, ThreadPool.setWorker, hempty]
  · have hw' := hcount (.running task)
    simp only [reduceCtorEq, if_false, if_true, Nat.add_zero] at hw'
    have hn := (List.nodup_append.mp h.nodup).2.1
    rw [htasks] at hn
    have hd := @drains_take s.before _ _ ((s.threads.set i (.running task)).count .waiting) hn
    rw [hw', ← htasks] at hd
    exact hd
  · have hw' := hcount .test
    simp only [reduceCtorEq, if_false, Nat.add_zero] at hw'
    simp [Drains, waiting, ThreadPool.setWorker, hw']

/-- A new task is enqueued behind those that were added before. -/
theorem Inv.drains_addTask (h : Inv s) : s.addTask.Drains ↔ s.Drains := by
  apply forall_congr'
  intro task
  apply imp_congr_right
  intro hb
  have hne : task ≠ s.added := Nat.ne_of_lt (h.before task hb)
  show (task ∈ s.tasks ++ [s.added] → task ∈ (s.tasks ++ [s.added]).take s.waiting) ↔ _
  rw [List.take_append, List.mem_append, List.mem_append]
  have hnew : task ∉ [s.added].take (s.waiting - s.tasks.length) := by
    intro hm
    exact hne (List.mem_singleton.mp (List.mem_of_mem_take hm))
  simp [hne, hnew]

/-- Whether the tasks added before are going to be taken is decided by the step that sets `m_stop`. -/
theorem Inv.stopped_drains (h : Inv s) (hr : s.step action = some s') :
    (s'.stop = true → s'.Drains) ↔ (s.stop = true → s.Drains) ∧ s.StopsDrained action := by
  cases action with
  | addTask =>
    cases hr
    show (s.stop = true → s.addTask.Drains) ↔ _
    rw [h.drains_addTask]
    simp [StopsDrained]
  | addReturn task =>
    simp only [ThreadPool.step] at hr
    split at hr
    · cases hr
      simp [StopsDrained, Drains, waiting]
    · cases hr
  | worker i =>
    simp only [ThreadPool.step] at hr
    split at hr
    · cases hr
    · rename_i w hw
      have hsame : s'.stop = s.stop := by
        rcases worker_cases hr with ⟨w', rfl, -⟩ | ⟨task, tasks, -, -, rfl⟩ | ⟨task, -, rfl⟩ <;> rfl
      have hd : s.StopsDrained (.worker i) := trivial
      rw [hsame, and_iff_left hd]
      apply imp_congr_right
      intro hstop
      exact h.drains_worker hw hstop hr
  | shutdown =>
    simp only [ThreadPool.step, ThreadPool.shutdownStep] at hr
    split at hr
    · rename_i hcall
      cases hr
      have hstop : ¬ s.stop = true := by simp [h.stop, hcall]
      simp [StopsDrained, hstop, hcall]
    · rename_i hcall
      cases hr
      have hstop : ¬ s.stop = true := by simp [h.stop, hcall]
      simp [StopsDrained, hstop, hcall, Drains, waiting]
    · rename_i k hjoin
      have hd : s.StopsDrained .shutdown := by simp [StopsDrained, hjoin]
      rw [and_iff_left hd]
      split at hr
      · cases hr
        rfl
      · cases hr
        rfl
      · cases hr
    · cases hr

/-! ## Runs -/

/-- When `shutdown` has returned, every worker is over. -/
theorem Inv.exited (h : Inv s) (hret : s.shutdown = .returned) : ∀ w ∈ s.threads, w = .exited := by
  intro w hw
  obtain ⟨j, hj⟩ := List.mem_iff_getElem?.mp hw
  have hlt := (List.getElem?_eq_some_iff.mp hj).1
  exact Option.some.inj (hj.symm.trans (h.returned hret j hlt))

/-- Then no worker takes a task any more, and those that were taken have been executed. -/
theorem Inv.executed_iff (h : Inv s) (hret : s.shutdown = .returned) :
    (∀ task ∈ s.before, task ∈ s.executed) ↔ s.Drains := by
  have hover := h.exited hret
  have hrun : s.running = [] := by
    apply List.flatMap_eq_nil_iff.mpr
    intro w hw
    rw [hover w hw]
    rfl
  have hwait : s.waiting = 0 := by
    apply List.count_eq_zero.mpr
    intro hm
    cases hover _ hm
  have hperm := h.runs
  rw [hrun, List.append_nil] at hperm
  apply forall_congr'
  intro task
  apply imp_congr_right
  intro hb
  rw [hwait, hperm.mem_iff, List.take_zero]
  constructor
  · intro htaken htask
    exact absurd rfl ((List.nodup_append.mp h.nodup).2.2 task htaken task htask)
  · intro hnone
    have hm : task ∈ s.taken ++ s.tasks := by
      rw [h.fifo]
      exact List.mem_range.mpr (h.before task hb)
    rcases List.mem_append.mp hm with htaken | htask
    · exact htaken
    · cases hnone htask

/-- In every run the tasks are taken in the order in which they were enqueued and each is run at most
    once; and when `shutdown` has returned, the tasks added before it was called have all been executed
    if and only if, at the step that set `m_stop`, each of them that was still queued had a waiting
    worker. -/
theorem run_executes (threadCount : Nat) {actions : List Action} {s : ThreadPool}
    (hr : Transition.run step (start threadCount) actions = some s) :
    s.taken ++ s.tasks = List.range s.added ∧ (s.executed ++ s.running).Nodup ∧
      (s.shutdown = .returned →
        ((∀ task ∈ s.before, task ∈ s.executed) ↔
          Transition.Meets step StopsDrained (start threadCount) actions)) := by
  have h : Inv s := Transition.run_invariant_of_step (fun _ _ _ hi ha => hi.step ha)
    (Inv.start threadCount) hr
  refine ⟨h.fifo, ?_, ?_⟩
  · rw [h.runs.nodup_iff]
    exact (List.nodup_append.mp h.nodup).1
  · intro hret
    have hiff : (s.stop = true → s.Drains) ↔
        Transition.Meets step StopsDrained (start threadCount) actions :=
      Transition.run_iff_meets (fun _ _ _ hi ha => hi.step ha) (fun _ _ _ hi ha => hi.stopped_drains ha)
        (Inv.start threadCount) (fun hd => by cases hd) hr
    have hstop : s.stop = true := by simp [h.stop, hret]
    rw [h.executed_iff hret, ← hiff]
    simp [hstop]

/-- One worker, which has passed the test of its loop when `shutdown` is called. -/
def waitingWorker : List Action :=
  [.addTask, .addReturn 0, .worker 0, .shutdown, .shutdown, .worker 0, .worker 0, .worker 0, .shutdown,
    .shutdown]

theorem run_executes_waitingWorker :
    ∃ s, Transition.run step (start 1) waitingWorker = some s ∧ s.shutdown = .returned ∧
      s.before = [0] ∧ s.taken ++ s.tasks = List.range s.added ∧ (s.executed ++ s.running).Nodup ∧
        ∀ task ∈ s.before, task ∈ s.executed := by
  obtain ⟨hfifo, hn, hall⟩ := @run_executes 1 waitingWorker _ rfl
  refine ⟨_, rfl, rfl, rfl, hfifo, hn, ?_⟩
  exact (hall rfl).mpr (by decide)

/-- One worker, which runs the first of two tasks when `shutdown` is called. -/
def busyWorker : List Action :=
  [.addTask, .addReturn 0, .addTask, .addReturn 1, .worker 0, .worker 0, .shutdown, .shutdown, .worker 0,
    .worker 0, .shutdown, .shutdown]

/-- The second task is dropped. -/
theorem busyWorker_drops :
    ∃ s, Transition.run step (start 1) busyWorker = some s ∧ s.shutdown = .returned ∧ 1 ∈ s.before ∧
      s.executed = [0] ∧ s.tasks = [1] ∧ ¬ ∀ task ∈ s.before, task ∈ s.executed := by
  refine ⟨_, rfl, rfl, by decide, rfl, rfl, ?_⟩
  intro h
  have hm := h 1 (by decide)
  contradiction

end ThreadPool

end ModularNetServer
