import Mathlib.Data.List.Nodup
import ModularNetServer.Log.Log

/-!
# What the log writes

File, hands of the log thread and queue together hold what was pushed, in the order of pushing, each call
of `write` once. A call that returns while `m_close_log` is unset has pushed its entry, if its level
suffices. `shutdown` writes the rest of the queue after the log thread has ended, so when it is through
with it, the file holds all that was pushed before it was called.
-/

namespace ModularNetServer

/-- The call has pushed its entry. -/
def WriteStage.past : WriteStage → Bool
  | .pushed | .returned => true
  | .entered | .accepted | .formatted _ => false

/-- `m_running` is unset. -/
def LogShutdown.stopped : LogShutdown → Bool
  | .notCalled | .called | .stopping => false
  | _ => true

/-- `m_close_log` is set. -/
def LogShutdown.closed : LogShutdown → Bool
  | .notCalled | .called | .stopping | .closing => false
  | _ => true

/-- The log thread has ended. -/
def LogShutdown.joined : LogShutdown → Bool
  | .locking | .draining | .closingFile | .returned => true
  | _ => false

/-- The rest of the queue is written. -/
def LogShutdown.drained : LogShutdown → Bool
  | .closingFile | .returned => true
  | _ => false

@[simp] theorem LogThread.entry_notify (thread : LogThread) : thread.notify.entry = thread.entry := by
  cases thread <;> rfl

namespace Log

variable {s s' : Log} {action : Action} {i : Nat} {call : WriteCall} {stage : WriteStage} {entry : LogEntry}

/-- A call of `write` has pushed this entry. -/
def PushedBy (s : Log) (entry : LogEntry) : Prop :=
  ∃ call now, s.calls[entry.call]? = some call ∧ call.stage.past = true ∧
    s.level.value ≤ call.level.value ∧ entry.text = formatLog now call.level call.message

/-- The place that a call has reached. -/
def Reaches (s : Log) (i : Nat) (call : WriteCall) : Prop :=
  match call.stage with
  | .entered => True
  | .accepted => s.level.value ≤ call.level.value
  | .formatted text =>
    s.level.value ≤ call.level.value ∧ ∃ now, text = formatLog now call.level call.message
  | .pushed => i ∈ s.queued.map LogEntry.call
  | .returned => s.level.value ≤ call.level.value → s.closeLog = false → i ∈ s.queued.map LogEntry.call

/-- What holds between steps. -/
structure Inv (s : Log) : Prop where
  fifo : s.logFile ++ (s.thread.entry ++ s.logQueue) = s.queued
  once : (s.queued.map LogEntry.call).Nodup
  pushed : ∀ entry ∈ s.queued, s.PushedBy entry
  reaches : ∀ i call, s.calls[i]? = some call → s.Reaches i call
  running : s.running = !s.shutdown.stopped
  closeLog : s.closeLog = s.shutdown.closed
  joined : s.shutdown.joined = true → s.thread = .exited
  fileOpen : s.fileOpen = !decide (s.shutdown = .returned)

theorem Inv.start (level : LogLevel) : Inv (start level) where
  fifo := rfl
  once := List.nodup_nil
  pushed := by simp [Log.start]
  reaches := by simp [Log.start]
  running := rfl
  closeLog := rfl
  joined := by simp [Log.start, LogShutdown.joined]
  fileOpen := rfl

/-! ## Calls of `write` -/

theorem PushedBy.setStage (h : s.PushedBy entry) (hi : s.calls[i]? = some call)
    (hpast : call.stage.past = true → stage.past = true) : (s.setStage i call stage).PushedBy entry := by
  obtain ⟨c, now, hc, hp, hl, ht⟩ := h
  by_cases he : i = entry.call
  · subst he
    cases hi.symm.trans hc
    have hlt : entry.call < s.calls.length := (List.getElem?_eq_some_iff.mp hc).1
    exact ⟨{ call with stage := stage }, now, List.getElem?_set_self hlt, hpast hp, hl, ht⟩
  · exact ⟨c, now, (List.getElem?_set_ne he).trans hc, hp, hl, ht⟩

/-- A call keeps its place while more is pushed, unless `m_close_log` is unset again. -/
theorem Reaches.mono (h : s.Reaches i call) (hlevel : s'.level = s.level)
    (hqueued : s.queued <+: s'.queued) (hclose : s'.closeLog = false → s.closeLog = false) :
    s'.Reaches i call := by
  have hmem : i ∈ s.queued.map LogEntry.call → i ∈ s'.queued.map LogEntry.call := by
    intro hm
    exact (hqueued.map LogEntry.call).subset hm
  unfold Reaches at h ⊢
  rw [hlevel]
  split
  · trivial
  · rename_i hstage
    rwa [hstage] at h
  · rename_i hstage
    rwa [hstage] at h
  · rename_i hstage
    rw [hstage] at h
    exact hmem h
  · rename_i hstage
    rw [hstage] at h
    intro hl hc
    exact hmem (h hl (hclose hc))

/-- The calls after one of them has gone on. -/
theorem reaches_set (h : ∀ j c, s.calls[j]? = some c → s.Reaches j c)
    (hi : s.Reaches i { call with stage := stage }) :
    ∀ j c, (s.setStage i call stage).calls[j]? = some c → s.Reaches j c := by
  intro j c hc
  by_cases hij : i = j
  · subst hij
    have hlt := (List.getElem?_eq_some_iff.mp hc).1
    rw [setStage, List.length_set] at hlt
    cases (List.getElem?_set_self hlt).symm.trans hc
    exact hi
  · exact h j c ((List.getElem?_set_ne hij).symm.trans hc)

theorem Inv.setStage (h : Inv s) (hi : s.calls[i]? = some call)
    (hpast : call.stage.past = true → stage.past = true)
    (hreaches : s.Reaches i { call with stage := stage }) : Inv (s.setStage i call stage) :=
  { h with
    pushed := fun entry he => (h.pushed entry he).setStage hi hpast
    reaches := reaches_set h.reaches hreaches }

theorem Inv.push (h : Inv s) {text : String} (hi : s.calls[i]? = some call)
    (hstage : call.stage = .formatted text) : Inv ((s.push ⟨i, text⟩).setStage i call .pushed) := by
  have hplace : s.Reaches i call := h.reaches i call hi
  rw [Reaches, hstage] at hplace
  obtain ⟨hlevel, now, htext⟩ := hplace
  have hnew : i ∉ s.queued.map LogEntry.call := by
    intro hm
    obtain ⟨entry, he, rfl⟩ := List.mem_map.mp hm
    obtain ⟨c, _, hc, hpast, -⟩ := h.pushed entry he
    cases hi.symm.trans hc
    simp [hstage, WriteStage.past] at hpast
  refine { h with fifo := ?_, once := ?_, pushed := ?_, reaches := ?_ }
  · show s.logFile ++ (s.thread.entry ++ (s.logQueue ++ [_])) = s.queued ++ [_]
    rw [← h.fifo]
    simp
  · show ((s.queued ++ [_]).map LogEntry.call).Nodup
    rw [List.map_append]
    exact List.nodup_append.mpr ⟨h.once, List.nodup_singleton _, by simpa using hnew⟩
  · intro entry he
    rcases List.mem_append.mp he with he | he
    · have hold : (s.push ⟨i, text⟩).PushedBy entry := h.pushed entry he
      exact hold.setStage hi (fun _ => rfl)
    · rw [List.mem_singleton] at he
      subst he
      have hlt : i < s.calls.length := (List.getElem?_eq_some_iff.mp hi).1
      exact ⟨{ call with stage := .pushed }, now, List.getElem?_set_self hlt, rfl, hlevel, htext⟩
  · refine reaches_set (fun j c hc => ?_) ?_
    · exact (h.reaches j c hc).mono rfl (List.prefix_append _ _) id
    · show i ∈ (s.queued ++ [_]).map LogEntry.call
      simp

/-- The log thread goes on, and keeps what it has in its hands. -/
theorem Inv.setThread (h : Inv s) {thread : LogThread} (hentry : thread.entry = s.thread.entry)
    (hexited : s.thread = .exited → thread = .exited) : Inv { s with thread := thread } :=
  { h with
    fifo := by
      show s.logFile ++ (thread.entry ++ s.logQueue) = s.queued
      rw [hentry, h.fifo]
    joined := fun hj => hexited (h.joined hj) }

theorem Inv.notify (h : Inv s) : Inv s.notify :=
  h.setThread (LogThread.entry_notify _) fun he => by rw [he]; rfl

theorem Inv.write (h : Inv s) {now : String} (hi : s.calls[i]? = some call)
    (hr : s.write i now call = some s') : Inv s' := by
  unfold Log.write at hr
  split at hr
  · rename_i hstage
    split at hr
    · rename_i hclosed
      cases hr
      refine h.setStage hi (fun _ => rfl) fun _ hopen => ?_
      simp [hclosed] at hopen
    · split at hr
      · rename_i hlevel
        cases hr
        exact h.setStage hi (by simp [hstage, WriteStage.past]) hlevel
      · rename_i hlevel
        cases hr
        exact h.setStage hi (fun _ => rfl) fun hl => absurd hl hlevel
  · rename_i hstage
    cases hr
    have hlevel : s.Reaches i call := h.reaches i call hi
    rw [Reaches, hstage] at hlevel
    exact h.setStage hi (by simp [hstage, WriteStage.past]) ⟨hlevel, now, rfl⟩
  · rename_i text hstage
    split at hr
    · cases hr
    · cases hr
      exact h.push hi hstage
  · rename_i hstage
    cases hr
    have hpushed : s.Reaches i call := h.reaches i call hi
    rw [Reaches, hstage] at hpushed
    exact h.notify.setStage hi (fun _ => rfl) fun _ _ => hpushed
  · cases hr

theorem Inv.newCall (h : Inv s) (level : LogLevel) (message : String) :
    Inv { s with calls := s.calls ++ [⟨level, message, .entered⟩] } := by
  refine { h with pushed := ?_, reaches := ?_ }
  · intro entry he
    obtain ⟨c, now, hc, hrest⟩ := h.pushed entry he
    have hlt := (List.getElem?_eq_some_iff.mp hc).1
    exact ⟨c, now, (List.getElem?_append_left hlt).trans hc, hrest⟩
  · intro j c hc
    by_cases hlt : j < s.calls.length
    · exact h.reaches j c ((List.getElem?_append_left hlt).symm.trans hc)
    · have hmem := List.mem_of_getElem? ((List.getElem?_append_right (Nat.le_of_not_lt hlt)).symm.trans hc)
      rw [List.mem_singleton] at hmem
      subst hmem
      trivial

/-! ## The log thread and `shutdown` -/

theorem writeLine_eq (h : s.fileOpen = true) (entry : LogEntry) :
    s.writeLine entry = { s with logFile := s.logFile ++ [entry] } := by
  simp [writeLine, h]

/-- Where the file is open, and `shutdown` does not write itself. -/
theorem Inv.fileOpen_of_not_joined (h : Inv s) (hj : s.shutdown.joined = false) : s.fileOpen = true := by
  rw [h.fileOpen]
  cases hs : s.shutdown <;> simp_all [LogShutdown.joined]

theorem Inv.not_joined (h : Inv s) (hthread : s.thread ≠ .exited) : s.shutdown.joined = false := by
  rw [← Bool.not_eq_true]
  exact fun hj => hthread (h.joined hj)

theorem Inv.logThread (h : Inv s) (hr : s.logThread = some s') : Inv s' := by
  unfold Log.logThread at hr
  split at hr
  · rename_i hthread
    cases hr
    apply h.setThread
    · rw [hthread]
      split <;> rfl
    · simp [hthread]
  · rename_i hthread
    split at hr
    · cases hr
    · cases hr
      exact h.setThread (by rw [hthread]; rfl) (by simp [hthread])
  · rename_i hthread
    cases hr
    apply h.setThread
    · rw [hthread]
      split <;> rfl
    · simp [hthread]
  · rename_i hthread
    cases hr
    exact h.setThread (by rw [hthread]; rfl) (by simp [hthread])
  · cases hr
  · rename_i hthread
    have hjoined := h.not_joined (by simp [hthread])
    have hfifo := h.fifo
    split at hr
    · cases hr
      exact h.setThread (by rw [hthread]; rfl) (by simp [hthread])
    · rename_i entry rest hqueue
      cases hr
      rw [hthread, hqueue] at hfifo
      exact { h with fifo := hfifo, joined := by simp [hjoined] }
  · rename_i entry hthread
    have hjoined := h.not_joined (by simp [hthread])
    have hfifo := h.fifo
    rw [writeLine_eq (h.fileOpen_of_not_joined hjoined)] at hr
    cases hr
    rw [hthread] at hfifo
    refine { h with fifo := ?_, joined := by simp [hjoined] }
    show s.logFile ++ [entry] ++ ([] ++ s.logQueue) = s.queued
    rw [← hfifo]
    simp [LogThread.entry]
  · cases hr

/-- `shutdown` goes on, and changes nothing but its own flags. -/
theorem Inv.setShutdown (h : Inv s) {shutdown : LogShutdown} {running closeLog fileOpen : Bool}
    (hrunning : running = !shutdown.stopped) (hclose : closeLog = shutdown.closed)
    (hopen : fileOpen = !decide (shutdown = .returned)) (hclosed : closeLog = false → s.closeLog = false)
    (hjoined : shutdown.joined = true → s.thread = .exited) :
    Inv { s with shutdown := shutdown, running := running, closeLog := closeLog, fileOpen := fileOpen } :=
  { h with
    reaches := fun i call hi => (h.reaches i call hi).mono rfl List.prefix_rfl hclosed
    running := hrunning
    closeLog := hclose
    joined := hjoined
    fileOpen := hopen }

/-- The one call of `shutdown` finds the log running. -/
theorem Inv.open_of_called (h : Inv s) (hs : s.shutdown = .called) :
    ¬ (s.closeLog = true ∨ s.running = false) := by
  rw [h.closeLog, h.running, hs]
  simp [LogShutdown.stopped, LogShutdown.closed]

theorem Inv.shutdownStep (h : Inv s) (hr : s.shutdownStep = some s') : Inv s' := by
  have hrunning := h.running
  have hclose := h.closeLog
  have hopen := h.fileOpen
  have hjoined := h.joined
  unfold Log.shutdownStep at hr
  split at hr
  · rename_i hs
    rw [hs] at hrunning hclose hopen
    cases hr
    exact h.setShutdown hrunning hclose hopen id (by simp [LogShutdown.joined])
  · rename_i hs
    rw [hs] at hrunning hclose hopen
    rw [if_neg (h.open_of_called hs)] at hr
    cases hr
    exact h.setShutdown hrunning hclose hopen id (by simp [LogShutdown.joined])
  · rename_i hs
    rw [hs] at hclose hopen
    cases hr
    exact h.setShutdown rfl hclose hopen id (by simp [LogShutdown.joined])
  · rename_i hs
    rw [hs] at hrunning hopen
    cases hr
    exact h.setShutdown hrunning rfl hopen (by simp) (by simp [LogShutdown.joined])
  · rename_i hs
    rw [hs] at hrunning hclose hopen
    cases hr
    exact h.notify.setShutdown hrunning hclose hopen id (by simp [LogShutdown.joined])
  · rename_i hs
    rw [hs] at hrunning hclose hopen
    split at hr
    · rename_i hexited
      cases hr
      exact h.setShutdown hrunning hclose hopen id fun _ => hexited
    · cases hr
  · rename_i hs
    rw [hs] at hrunning hclose hopen hjoined
    split at hr
    · cases hr
    · cases hr
      exact h.setShutdown hrunning hclose hopen id fun _ => hjoined rfl
  · rename_i hs
    rw [hs] at hrunning hclose hopen hjoined
    split at hr
    · cases hr
      exact h.setShutdown hrunning hclose hopen id fun _ => hjoined rfl
    · rename_i entry rest hqueue
      rw [writeLine_eq hopen] at hr
      cases hr
      have hfifo := h.fifo
      rw [hjoined rfl, hqueue] at hfifo
      refine { h with fifo := ?_ }
      show s.logFile ++ [entry] ++ (s.thread.entry ++ rest) = s.queued
      rw [← hfifo, hjoined rfl]
      simp [LogThread.entry]
  · rename_i hs
    rw [hs] at hrunning hclose hjoined
    cases hr
    exact h.setShutdown hrunning hclose rfl id fun _ => hjoined rfl
  · cases hr

theorem Inv.step (h : Inv s) (hr : s.step action = some s') : Inv s' := by
  cases action with
  | call level message =>
    cases hr
    exact h.newCall level message
  | write i now =>
    simp only [Log.step] at hr
    split at hr
    · cases hr
    · rename_i call hi
      exact h.write hi hr
  | logThread => exact h.logThread hr
  | wakeUp =>
    simp only [Log.step] at hr
    split at hr
    · cases hr
      exact h.notify
    · cases hr
  | shutdown => exact h.shutdownStep hr

theorem Inv.of_run {level : LogLevel} {actions : List Action}
    (hrun : Transition.run Log.step (Log.start level) actions = some s) : Inv s :=
  Transition.run_invariant_of_step (fun _ _ _ h hr => h.step hr) (Inv.start level) hrun

/-! ## What a run leaves in the file -/

theorem prefix_writeLine (s : Log) (entry : LogEntry) : s.logFile <+: (s.writeLine entry).logFile := by
  unfold writeLine
  split
  · exact List.prefix_append _ _
  · exact List.prefix_rfl

@[simp] theorem queued_writeLine (s : Log) (entry : LogEntry) : (s.writeLine entry).queued = s.queued := by
  unfold writeLine
  split <;> rfl

@[simp] theorem shutdown_writeLine (s : Log) (entry : LogEntry) :
    (s.writeLine entry).shutdown = s.shutdown := by
  unfold writeLine
  split <;> rfl

/-- A call of `write` leaves the file and `shutdown` alone. -/
theorem write_grows {now : String} (hr : s.write i now call = some s') :
    s.queued <+: s'.queued ∧ s'.logFile = s.logFile ∧ s'.shutdown = s.shutdown := by
  unfold write at hr
  split at hr
  · split at hr
    · cases hr
      exact ⟨List.prefix_rfl, rfl, rfl⟩
    · split at hr <;> cases hr <;> exact ⟨List.prefix_rfl, rfl, rfl⟩
  · cases hr
    exact ⟨List.prefix_rfl, rfl, rfl⟩
  · split at hr
    · cases hr
    · cases hr
      exact ⟨List.prefix_append _ _, rfl, rfl⟩
  · cases hr
    exact ⟨List.prefix_rfl, rfl, rfl⟩
  · cases hr

/-- The log thread leaves the history and `shutdown` alone. -/
theorem logThread_grows (hr : s.logThread = some s') :
    s'.queued = s.queued ∧ s.logFile <+: s'.logFile ∧ s'.shutdown = s.shutdown := by
  unfold logThread at hr
  split at hr
  · cases hr
    exact ⟨rfl, List.prefix_rfl, rfl⟩
  · split at hr
    · cases hr
    · cases hr
      exact ⟨rfl, List.prefix_rfl, rfl⟩
  · cases hr
    exact ⟨rfl, List.prefix_rfl, rfl⟩
  · cases hr
    exact ⟨rfl, List.prefix_rfl, rfl⟩
  · cases hr
  · split at hr <;> cases hr <;> exact ⟨rfl, List.prefix_rfl, rfl⟩
  · cases hr
    exact ⟨queued_writeLine .., prefix_writeLine .., shutdown_writeLine ..⟩
  · cases hr

/-- `shutdown` ends its loop when all that was pushed is in the file. -/
theorem Inv.shutdownStep_grows (h : Inv s) (hr : s.shutdownStep = some s') :
    s'.queued = s.queued ∧ s.logFile <+: s'.logFile ∧
      (s'.shutdown.drained = true → s.shutdown.drained = true ∨ s'.logFile = s'.queued) := by
  have hjoined := h.joined
  unfold Log.shutdownStep at hr
  split at hr
  · cases hr
    exact ⟨rfl, List.prefix_rfl, by simp [LogShutdown.drained]⟩
  · rename_i hs
    rw [if_neg (h.open_of_called hs)] at hr
    cases hr
    exact ⟨rfl, List.prefix_rfl, by simp [LogShutdown.drained]⟩
  · cases hr
    exact ⟨rfl, List.prefix_rfl, by simp [LogShutdown.drained]⟩
  · cases hr
    exact ⟨rfl, List.prefix_rfl, by simp [LogShutdown.drained]⟩
  · cases hr
    exact ⟨rfl, List.prefix_rfl, by simp [LogShutdown.drained]⟩
  · split at hr
    · cases hr
      exact ⟨rfl, List.prefix_rfl, by simp [LogShutdown.drained]⟩
    · cases hr
  · split at hr
    · cases hr
    · cases hr
      exact ⟨rfl, List.prefix_rfl, by simp [LogShutdown.drained]⟩
  · rename_i hs
    rw [hs] at hjoined
    split at hr
    · rename_i hqueue
      cases hr
      have hfifo := h.fifo
      rw [hjoined rfl, hqueue] at hfifo
      refine ⟨rfl, List.prefix_rfl, fun _ => .inr ?_⟩
      simpa [LogThread.entry] using hfifo
    · cases hr
      refine ⟨queued_writeLine .., prefix_writeLine .., fun hd => ?_⟩
      simp [hs, LogShutdown.drained] at hd
  · rename_i hs
    cases hr
    exact ⟨rfl, List.prefix_rfl, fun _ => .inl (by rw [hs]; rfl)⟩
  · cases hr

/-- An entry that is in the file as soon as `shutdown` has written the rest of the queue. -/
def Kept (s : Log) (entry : LogEntry) : Prop :=
  entry ∈ s.queued ∧ (s.shutdown.drained = true → entry ∈ s.logFile)

theorem Kept.step (h : Inv s) (hkept : s.Kept entry) (hr : s.step action = some s') : s'.Kept entry := by
  obtain ⟨hq, hf⟩ := hkept
  cases action with
  | call level message =>
    cases hr
    exact ⟨hq, hf⟩
  | write i now =>
    simp only [Log.step] at hr
    split at hr
    · cases hr
    · obtain ⟨hqueued, hfile, hshutdown⟩ := write_grows hr
      refine ⟨hqueued.subset hq, fun hd => ?_⟩
      rw [hshutdown] at hd
      rw [hfile]
      exact hf hd
  | logThread =>
    obtain ⟨hqueued, hfile, hshutdown⟩ := logThread_grows hr
    refine ⟨hqueued ▸ hq, fun hd => ?_⟩
    rw [hshutdown] at hd
    exact hfile.subset (hf hd)
  | wakeUp =>
    simp only [Log.step] at hr
    split at hr
    · cases hr
      exact ⟨hq, hf⟩
    · cases hr
  | shutdown =>
    obtain ⟨hqueued, hfile, hdrained⟩ := h.shutdownStep_grows hr
    refine ⟨hqueued ▸ hq, fun hd => ?_⟩
    rcases hdrained hd with hd | hall
    · exact hfile.subset (hf hd)
    · rw [hall, hqueued]
      exact hq

theorem Kept.of_run (h : Inv s) (hkept : s.Kept entry) {actions : List Action}
    (hrun : Transition.run Log.step s actions = some s') : s'.Kept entry := by
  have hstep : ∀ s a s', Inv s ∧ s.Kept entry → Log.step s a = some s' → Inv s' ∧ s'.Kept entry :=
    fun s a s' hi hr => ⟨hi.1.step hr, hi.2.step hi.1 hr⟩
  exact (Transition.run_invariant_of_step hstep ⟨h, hkept⟩ hrun).2

/-- What a call of sufficient level has pushed when it returns before `shutdown` is called. -/
theorem Inv.kept_of_returned (h : Inv s) (hshutdown : s.shutdown = .notCalled)
    (hi : s.calls[i]? = some call) (hreturned : call.stage = .returned)
    (hlevel : s.level.value ≤ call.level.value) :
    ∃ now, s.Kept ⟨i, formatLog now call.level call.message⟩ := by
  have hplace : s.Reaches i call := h.reaches i call hi
  rw [Reaches, hreturned] at hplace
  have hopen : s.closeLog = false := by
    rw [h.closeLog, hshutdown]
    rfl
  obtain ⟨⟨j, text⟩, he, rfl⟩ := List.mem_map.mp (hplace hlevel hopen)
  obtain ⟨c, now, hc, -, -, htext⟩ := h.pushed _ he
  cases hi.symm.trans hc
  cases htext
  refine ⟨now, he, fun hd => ?_⟩
  simp [hshutdown, LogShutdown.drained] at hd

theorem Inv.file_prefix (h : Inv s) : s.logFile <+: s.queued := by
  rw [← h.fifo]
  exact List.prefix_append _ _

/-- No call has two lines in the file. -/
theorem Inv.lines_eq (h : Inv s) (he : entry ∈ s.logFile) :
    s.logFile.filter (fun line => line.call = entry.call) = [entry] := by
  have honce : (s.logFile.map LogEntry.call).Nodup :=
    h.once.sublist (h.file_prefix.map LogEntry.call).sublist
  have hsame : ∀ line ∈ s.logFile, decide (line.call = entry.call) = (line == entry) := by
    intro line hl
    rw [Bool.eq_iff_iff, decide_eq_true_iff, beq_iff_eq]
    exact ⟨fun hcall => List.inj_on_of_nodup_map honce hl he hcall, fun heq => heq ▸ rfl⟩
  rw [List.filter_congr hsame, List.filter_beq, List.count_eq_one_of_mem honce.of_map he]
  rfl

/-- The file holds what was pushed, in the order of pushing, each line from a call of `write` of sufficient
    level; and after `shutdown`, exactly one line for each such call that had returned before. -/
theorem file_of_calls (level : LogLevel) (actions later : List Action) {s s' : Log}
    (hrun : Transition.run step (start level) actions = some s) (hshutdown : s.shutdown = .notCalled)
    (hlater : Transition.run step s later = some s') :
    s'.logFile <+: s'.queued ∧ (∀ entry ∈ s'.logFile, s'.PushedBy entry) ∧
      (s'.shutdown = .returned → ∀ i call, s.calls[i]? = some call → call.stage = .returned →
        s.level.value ≤ call.level.value →
        ∃ now, s'.logFile.filter (fun line => line.call = i) =
          [⟨i, formatLog now call.level call.message⟩]) := by
  have hinv : Inv s := .of_run hrun
  have hinv' : Inv s' := Transition.run_invariant_of_step (fun _ _ _ h hr => h.step hr) hinv hlater
  refine ⟨hinv'.file_prefix, fun entry he => hinv'.pushed entry (hinv'.file_prefix.subset he), ?_⟩
  intro hreturned i call hi hstage hlevel
  obtain ⟨now, hkept⟩ := hinv.kept_of_returned hshutdown hi hstage hlevel
  obtain ⟨-, hfile⟩ := hkept.of_run hinv hlater
  exact ⟨now, hinv'.lines_eq (hfile (by rw [hreturned]; rfl))⟩

/-- A call of `write` that returns while the log thread has not begun its loop. -/
def earlyLine : List Action :=
  .call .warn "disk" :: List.replicate 4 (.write 0 "[2025-01-01 00:00:00]")

/-- `shutdown` waits for the log thread, which ends at once, and writes the line itself. -/
def lateDrain : List Action :=
  List.replicate 5 .shutdown ++ [.logThread] ++ List.replicate 5 .shutdown

theorem file_of_calls_lateDrain :
    ∃ s s', Transition.run step (start .info) earlyLine = some s ∧
      Transition.run step s lateDrain = some s' ∧ s'.shutdown = .returned ∧
      ∃ now, s'.logFile.filter (fun line => line.call = 0) = [⟨0, formatLog now .warn "disk"⟩] := by
  refine ⟨_, _, rfl, rfl, rfl, ?_⟩
  exact (file_of_calls .info earlyLine lateDrain rfl rfl rfl).2.2 rfl 0
    ⟨.warn, "disk", .returned⟩ rfl rfl (by decide)

end Log

end ModularNetServer
