import ModularNetServer.Library.Slots
import ModularNetServer.Log.Proofs.LogProofs

/-!
# Waking the log thread up

`shutdown` unsets `m_running` and notifies without `m_mutex`. A log thread that has seen `m_running` set,
and does not block yet, misses the notification; it then blocks with `m_running` unset, and `shutdown`
waits for it, unless a call of `write` still comes to `notify_one`.
-/

namespace ModularNetServer

/-- The call will push its entry. -/
def WriteStage.pushes : WriteStage → Bool
  | .accepted | .formatted _ => true
  | .entered | .pushed | .returned => false

/-- The call will notify. -/
def WriteStage.notifies : WriteStage → Bool
  | .accepted | .formatted _ | .pushed => true
  | .entered | .returned => false

theorem WriteStage.notifies_of_pushes {stage : WriteStage} (h : stage.pushes = true) :
    stage.notifies = true := by
  cases stage <;> first | rfl | cases h

theorem LogThread.notify_eq_blocking {thread : LogThread} (h : thread.notify = .blocking) :
    thread = .blocking := by
  cases thread <;> first | rfl | cases h

theorem LogThread.notify_ne_blocked (thread : LogThread) : thread.notify ≠ .blocked := by
  cases thread <;> simp [LogThread.notify]

namespace Log

variable {s s' : Log} {action : Action} {i : Nat} {call : WriteCall} {stage : WriteStage}

/-- The log thread waits for a notification that nobody is left to issue, and `shutdown` for the log
    thread. -/
def Hung (s : Log) : Prop :=
  s.thread = .blocked ∧ s.running = false ∧ s.shutdown = .joining ∧
    ∀ call ∈ s.calls, call.stage.notifies = false

instance (s : Log) : Decidable s.Hung := inferInstanceAs (Decidable (_ ∧ _ ∧ _ ∧ _))

/-- `notify_all` does not fall between the predicate and the blocking of the log thread, or a call of
    `write` will notify after it. -/
def NotifiesInTime (s : Log) : Action → Prop
  | .shutdown => s.shutdown = .notifying → s.thread = .blocking → ∃ call ∈ s.calls, call.stage.pushes = true
  | _ => True

instance (s : Log) : (action : Action) → Decidable (s.NotifiesInTime action)
  | .shutdown => inferInstanceAs (Decidable (_ → _ → _))
  | .call _ _ => isTrue trivial
  | .write _ _ => isTrue trivial
  | .logThread => isTrue trivial
  | .wakeUp => isTrue trivial

/-- While `shutdown` joins the log thread, someone will wake it up. -/
structure Wakes (s : Log) : Prop where
  blocking : s.shutdown = .joining → s.thread = .blocking → ∃ call ∈ s.calls, call.stage.pushes = true
  blocked : s.shutdown = .joining → s.thread = .blocked → ∃ call ∈ s.calls, call.stage.notifies = true

theorem Wakes.start (level : LogLevel) : Wakes (start level) where
  blocking := by simp [Log.start]
  blocked := by simp [Log.start]

theorem Wakes.not_hung (h : Wakes s) : ¬ s.Hung := by
  intro ⟨hblocked, _, hjoining, hnone⟩
  obtain ⟨call, hc, hnotifies⟩ := h.blocked hjoining hblocked
  simp [hnone call hc] at hnotifies

/-- Where the log thread neither blocks nor is about to. -/
theorem Wakes.of_thread (hblocking : s.thread ≠ .blocking) (hblocked : s.thread ≠ .blocked) : Wakes s where
  blocking := fun _ ht => absurd ht hblocking
  blocked := fun _ ht => absurd ht hblocked

theorem Wakes.of_shutdown (h : s.shutdown ≠ .joining) : Wakes s where
  blocking := fun hj => absurd hj h
  blocked := fun hj => absurd hj h

/-! ## Steps -/

/-- A call of `write` that has nothing to do with notifications goes on. -/
theorem exists_setStage {p : WriteStage → Bool} (hi : s.calls[i]? = some call)
    (hp : p call.stage = true → p stage = true) (h : ∃ c ∈ s.calls, p c.stage = true) :
    ∃ c ∈ (s.setStage i call stage).calls, p c.stage = true := by
  obtain ⟨c, hc, hpc⟩ := h
  by_cases he : c = call
  · subst he
    have hlt := (List.getElem?_eq_some_iff.mp hi).1
    exact ⟨_, List.mem_set hlt _, hp hpc⟩
  · exact ⟨c, Slots.mem_set_of_ne hi hc he _, hpc⟩

theorem Wakes.setStage (h : Wakes s) (hi : s.calls[i]? = some call)
    (hpushes : call.stage.pushes = true → stage.pushes = true)
    (hnotifies : call.stage.notifies = true → stage.notifies = true) : Wakes (s.setStage i call stage) where
  blocking := fun hj ht => exists_setStage hi hpushes (h.blocking hj ht)
  blocked := fun hj ht => exists_setStage hi hnotifies (h.blocked hj ht)

theorem Wakes.write (h : Wakes s) {now : String} (hi : s.calls[i]? = some call)
    (hr : s.write i now call = some s') : Wakes s' := by
  unfold Log.write at hr
  split at hr
  · rename_i hstage
    have hset : ∀ stage, Wakes (s.setStage i call stage) := by
      intro stage
      exact h.setStage hi (by simp [hstage, WriteStage.pushes]) (by simp [hstage, WriteStage.notifies])
    split at hr
    · cases hr
      exact hset _
    · split at hr <;> cases hr <;> exact hset _
  · cases hr
    exact h.setStage hi (fun _ => rfl) (fun _ => rfl)
  · split at hr
    · cases hr
    · rename_i text hstage hlocked
      cases hr
      -- While the log thread is about to block, it holds the lock that the call asks for.
      refine ⟨fun _ ht => absurd ?_ hlocked, fun _ _ => ?_⟩
      · have hthread : s.thread = .blocking := ht
        simp [locked, hthread, LogThread.holds]
      · have hlt := (List.getElem?_eq_some_iff.mp hi).1
        exact ⟨_, List.mem_set hlt _, rfl⟩
  · rename_i hstage
    cases hr
    refine ⟨fun hj ht => ?_, fun _ ht => absurd ht s.thread.notify_ne_blocked⟩
    have hpushes : call.stage.pushes = true → WriteStage.returned.pushes = true := by
      simp [hstage, WriteStage.pushes]
    exact exists_setStage (s := s) hi hpushes (h.blocking hj (LogThread.notify_eq_blocking ht))
  · cases hr

theorem Wakes.logThread (hinv : Inv s) (h : Wakes s) (hr : s.logThread = some s') : Wakes s' := by
  unfold Log.logThread at hr
  split at hr
  · cases hr
    apply Wakes.of_thread <;> (show (if _ then _ else _) ≠ _; split <;> simp)
  · split at hr
    · cases hr
    · cases hr
      exact .of_thread (by simp) (by simp)
  · cases hr
    by_cases hj : s.shutdown = .joining
    · -- `m_running` is unset, so the predicate is true.
      have hrunning : s.running = false := by
        rw [hinv.running, hj]
        rfl
      rw [if_pos (Or.inr hrunning)]
      exact .of_thread (by simp) (by simp)
    · exact .of_shutdown hj
  · rename_i hthread
    cases hr
    refine ⟨by simp, fun hj _ => ?_⟩
    obtain ⟨call, hc, hpushes⟩ := h.blocking hj hthread
    exact ⟨call, hc, WriteStage.notifies_of_pushes hpushes⟩
  · cases hr
  · split at hr <;> cases hr <;> exact .of_thread (by simp) (by simp)
  · cases hr
    exact .of_thread (by simp) (by simp)
  · cases hr

theorem Wakes.shutdownStep (hin : s.NotifiesInTime .shutdown) (hr : s.shutdownStep = some s') :
    Wakes s' := by
  unfold Log.shutdownStep at hr
  split at hr
  · cases hr
    exact .of_shutdown (by simp)
  · cases hr
    apply Wakes.of_shutdown
    show (if _ then _ else _) ≠ _
    split <;> simp
  · cases hr
    exact .of_shutdown (by simp)
  · cases hr
    exact .of_shutdown (by simp)
  · rename_i hs
    cases hr
    exact ⟨fun _ ht => hin hs (LogThread.notify_eq_blocking ht), fun _ ht => absurd ht s.thread.notify_ne_blocked⟩
  · split at hr <;> cases hr
    exact .of_shutdown (by simp)
  · split at hr <;> cases hr
    exact .of_shutdown (by simp)
  · rename_i hs
    split at hr <;> cases hr
    · exact .of_shutdown (by simp)
    · exact .of_shutdown (by simp [hs])
  · cases hr
    exact .of_shutdown (by simp)
  · cases hr

theorem Wakes.step (hinv : Inv s) (h : Wakes s) (hin : s.NotifiesInTime action)
    (hr : s.step action = some s') : Wakes s' := by
  cases action with
  | call level message =>
    cases hr
    refine ⟨fun hj ht => ?_, fun hj ht => ?_⟩
    · obtain ⟨call, hc, hp⟩ := h.blocking hj ht
      exact ⟨call, List.mem_append_left _ hc, hp⟩
    · obtain ⟨call, hc, hp⟩ := h.blocked hj ht
      exact ⟨call, List.mem_append_left _ hc, hp⟩
  | write i now =>
    simp only [Log.step] at hr
    split at hr
    · cases hr
    · rename_i call hi
      exact h.write hi hr
  | logThread => exact h.logThread hinv hr
  | wakeUp =>
    simp only [Log.step] at hr
    split at hr
    · rename_i hthread
      cases hr
      exact .of_thread (by simp [notify, hthread, LogThread.notify]) s.thread.notify_ne_blocked
    · cases hr
  | shutdown => exact .shutdownStep hin hr

/-- In a run whose `notify_all` is in time, `shutdown` never waits for a log thread that nobody will wake
    up. -/
theorem not_hung_of_notifiesInTime (level : LogLevel) (actions : List Action) {s : Log}
    (hrun : Transition.run step (start level) actions = some s)
    (hmeets : Transition.Meets step NotifiesInTime (start level) actions) : ¬ s.Hung := by
  have hstep : ∀ s a s', Inv s ∧ Wakes s → s.NotifiesInTime a → Log.step s a = some s' → Inv s' ∧ Wakes s' :=
    fun s a s' hi hin hr => ⟨hi.1.step hr, hi.2.step hi.1 hin hr⟩
  have hstart : Inv (start level) ∧ Wakes (start level) := ⟨.start level, .start level⟩
  exact (Transition.run_invariant hstep hstart hmeets hrun).2.not_hung

/-- Nothing is written: the log thread does not come to see that `m_running` is unset. -/
def promptShutdown : List Action :=
  [.logThread, .logThread] ++ List.replicate 5 .shutdown

theorem not_hung_promptShutdown :
    ∃ s, Transition.run step (start .info) promptShutdown = some s ∧ s.shutdown = .joining ∧ ¬ s.Hung :=
  ⟨_, rfl, rfl, not_hung_of_notifiesInTime .info promptShutdown rfl (by decide)⟩

/-- The log thread has found the queue empty and `m_running` set when `shutdown` unsets it and notifies; then
    it blocks. -/
theorem shutdown_hangs :
    ∃ s, Transition.run step (start .info)
      (List.replicate 3 .logThread ++ List.replicate 5 .shutdown ++ [.logThread]) = some s ∧ s.Hung :=
  ⟨_, rfl, by decide⟩

/-! ## A notification that comes too early -/

/-- Calls of `write` that have pushed notify too, and the log thread, which does not block yet, misses that
    as well. -/
theorem exists_hung_of_blocking (hthread : s.thread = .blocking) (hrunning : s.running = false)
    (hjoining : s.shutdown = .joining) (hnone : ∀ call ∈ s.calls, call.stage.pushes = false) :
    ∃ later s', Transition.run step s later = some s' ∧ s'.Hung := by
  induction hn : s.calls.countP (fun call => call.stage = .pushed) generalizing s with
  | zero =>
    refine ⟨[.logThread], { s with thread := .blocked }, ?_, rfl, hrunning, hjoining, ?_⟩
    · simp [Transition.run, step, logThread, hthread]
    · intro call hc
      have hpushes := hnone call hc
      have hpushed := List.countP_eq_zero.mp hn call hc
      cases hstage : call.stage <;> simp_all [WriteStage.pushes, WriteStage.notifies]
  | succ n ih =>
    have hpos : 0 < s.calls.countP (fun call => call.stage = .pushed) := by omega
    obtain ⟨call, hc, hpushed⟩ := List.countP_pos_iff.mp hpos
    obtain ⟨i, hi⟩ := List.mem_iff_getElem?.mp hc
    rw [decide_eq_true_iff] at hpushed
    have hstep : s.step (.write i "") = some (s.notify.setStage i call .returned) := by
      simp [step, write, hi, hpushed]
    have hcount : (s.calls.set i { call with stage := .returned }).countP
        (fun call => call.stage = .pushed) = n := by
      have hp := (Slots.set_perm hi { call with stage := .returned }).countP_eq
        (fun call => call.stage = .pushed)
      simpa [hpushed, hn] using hp
    have hnone' : ∀ c ∈ s.calls.set i { call with stage := .returned }, c.stage.pushes = false := by
      intro c hmem
      rcases List.mem_or_eq_of_mem_set hmem with hold | rfl
      · exact hnone c hold
      · rfl
    obtain ⟨later, s', hrun, hhung⟩ := ih (s := s.notify.setStage i call .returned)
      (by simp [notify, setStage, hthread, LogThread.notify]) hrunning hjoining hnone' hcount
    refine ⟨.write i "" :: later, s', ?_, hhung⟩
    rw [Transition.run, hstep]
    exact hrun

/-- Wherever `notify_all` comes too early, the threads can come to wait for each other for good. -/
theorem exists_hung_of_early (h : Inv s) (hearly : ¬ s.NotifiesInTime .shutdown) :
    ∃ later s', Transition.run step s (.shutdown :: later) = some s' ∧ s'.Hung := by
  simp only [NotifiesInTime, not_forall, not_exists, not_and, Bool.not_eq_true] at hearly
  obtain ⟨hnotifying, hthread, hnone⟩ := hearly
  have hrunning : s.running = false := by
    rw [h.running, hnotifying]
    rfl
  have hstep : s.step .shutdown = some { s.notify with shutdown := .joining } := by
    simp [step, shutdownStep, hnotifying]
  have hblocking : ({ s.notify with shutdown := .joining } : Log).thread = .blocking := by
    simp [notify, hthread, LogThread.notify]
  obtain ⟨later, s', hrun, hhung⟩ := exists_hung_of_blocking hblocking hrunning rfl hnone
  refine ⟨later, s', ?_, hhung⟩
  rw [Transition.run, hstep]
  exact hrun

end Log

end ModularNetServer
