import ModularNetServer.Library.Slots
import ModularNetServer.Net.Proofs.OwnershipProofs
import ModularNetServer.Net.Proofs.UsersProofs
import ModularNetServer.Net.Proofs.WriteEventProofs

/-!
# Turns

With one-shot notification a connection has one turn: its descriptor is armed, or an event of it has been
reported and is still to be handled, or a task works for it and has not armed the descriptor again. In an
orderly run in which no number is accepted while an event of the same number is still to be handled, no
connection ever has two turns, so no two workers and not the main thread and a worker read, process or
write for one connection. Where no event is dropped either, a connection that `m_users` has keeps its turn.
-/

namespace ModularNetServer

/-- Has a task at this stage still to arm the descriptor again, or to close the connection? -/
def Stage.holdsTurn : Stage → Bool
  | .refreshIfOpen => false
  | .refreshTimer => false
  | _ => true

/-- Is this an event that the loop drops? -/
def Event.isHangup : Event → Bool
  | .hangup _ => true
  | _ => false

namespace NetServer

variable {s s' : NetServer} {a c c' : ConnId} {fd fd' : Nat} {x : BaseConn}

/-- The turns that a connection has outside the thread pool. -/
def pending (s : NetServer) (c : ConnId) : Nat :=
  if s.owner (s.conn c).accepted = some c then
    (if (s.epoll (s.conn c).accepted).join.isSome then 1 else 0) +
      s.events.countP (fun e => e.fd = some (s.conn c).accepted)
  else 0

/-- The turns that a connection has in the thread pool. -/
def working (s : NetServer) (c : ConnId) : Nat :=
  s.tasks.countP (fun t => decide (t.conn = c) && t.stage.holdsTurn)

/-- The turns of a connection. -/
def turns (s : NetServer) (c : ConnId) : Nat := s.pending c + s.working c

/-- A connection that `m_users` has under a number, and that is open. -/
def Serves (s : NetServer) (fd : Nat) (c : ConnId) : Prop :=
  s.users fd = some c ∧ (s.conn c).isClosed = false

/-- No number is accepted while an event of it is still to be handled. -/
def Fresh (s : NetServer) (action : Action) : Prop :=
  ∀ fd ∈ action.accepts, ∀ e ∈ s.events, e.fd ≠ some fd

/-- The event that an action handles. -/
def handled (s : NetServer) : Action → Option Event
  | .handle _ => s.events.head?
  | _ => none

/-- The event that an action handles is not dropped. -/
def Heeds (s : NetServer) (action : Action) : Prop := ∀ e ∈ s.handled action, e.isHangup = false

instance (s : NetServer) (action : Action) : Decidable (s.Fresh action) :=
  inferInstanceAs (Decidable (∀ fd ∈ action.accepts, ∀ e ∈ s.events, e.fd ≠ some fd))

instance (s : NetServer) (action : Action) : Decidable (s.Heeds action) :=
  inferInstanceAs (Decidable (∀ e ∈ s.handled action, e.isHangup = false))

/-! ## Steps that make no connection -/

/-- No connection gets a turn by a step, those that are open in `m_users` have been there, and they stay
    registered. -/
structure Yields (s s' : NetServer) : Prop where
  le : ∀ c, s'.turns c ≤ s.turns c
  serves : ∀ fd c, s'.Serves fd c → s.Serves fd c
  registered : ∀ fd c, s'.Serves fd c → (s.epoll fd).isSome = true → (s'.epoll fd).isSome = true

/-- Those that are open in `m_users` and registered also keep a turn. -/
structure Passes (s s' : NetServer) : Prop extends Yields s s' where
  turn : ∀ fd c, s'.Serves fd c → (s.epoll fd).isSome = true → 1 ≤ s.turns c → 1 ≤ s'.turns c

/-- Connections are closed or dropped, and nothing happens to the others. -/
structure Withdraws (s s' : NetServer) : Prop where
  accepted : ∀ c, (s'.conn c).accepted = (s.conn c).accepted
  owner : ∀ fd c, s'.owner fd = some c → s.owner fd = some c
  epoll : ∀ fd, s'.epoll fd = s.epoll fd ∨ s'.epoll fd = none
  kept : ∀ fd c, s'.Serves fd c → s.Serves fd c ∧ s'.epoll fd = s.epoll fd
  events : s'.events = s.events
  tasks : s'.tasks = s.tasks

namespace Withdraws

theorem refl (s : NetServer) : Withdraws s s where
  accepted := fun _ => rfl
  owner := fun _ _ h => h
  epoll := fun _ => .inl rfl
  kept := fun _ _ h => ⟨h, rfl⟩
  events := rfl
  tasks := rfl

theorem trans {t : NetServer} (h : Withdraws s t) (h' : Withdraws t s') : Withdraws s s' where
  accepted := fun c => (h'.accepted c).trans (h.accepted c)
  owner := fun fd c ho => h.owner fd c (h'.owner fd c ho)
  epoll := by
    intro fd
    rcases h'.epoll fd with heq | hnone
    · rw [heq]
      exact h.epoll fd
    · exact .inr hnone
  kept := by
    intro fd c hs
    obtain ⟨hs, heq'⟩ := h'.kept fd c hs
    obtain ⟨hs, heq⟩ := h.kept fd c hs
    exact ⟨hs, heq'.trans heq⟩
  events := h'.events.trans h.events
  tasks := h'.tasks.trans h.tasks

theorem pending_le (h : Withdraws s s') (c : ConnId) : s'.pending c ≤ s.pending c := by
  unfold pending
  rw [h.accepted c, h.events]
  by_cases ho : s'.owner (s.conn c).accepted = some c
  · rw [if_pos ho, if_pos (h.owner _ c ho)]
    rcases h.epoll (s.conn c).accepted with heq | hnone
    · rw [heq]
    · rw [hnone]
      exact Nat.add_le_add_right (Nat.zero_le _) _
  · rw [if_neg ho]
    exact Nat.zero_le _

theorem pending_eq (h : Withdraws s s') (hsound : s'.Sound) (hs : s'.Serves fd c) :
    s'.pending c = s.pending c := by
  have ho := (hsound.sockfd_of_users hs.1 hs.2).2.2
  have hacc := (hsound.users fd c hs.1).2.1
  have hacc' : (s.conn c).accepted = fd := by rw [← h.accepted c, hacc]
  unfold pending
  rw [hacc, hacc', h.events, (h.kept fd c hs).2, if_pos ho, if_pos (h.owner fd c ho)]

theorem working_eq (h : Withdraws s s') (c : ConnId) : s'.working c = s.working c := by
  unfold working
  rw [h.tasks]

theorem passes (h : Withdraws s s') (hsound : s'.Sound) : Passes s s' where
  le := fun c => Nat.add_le_add (h.pending_le c) (Nat.le_of_eq (h.working_eq c))
  serves := fun fd c hs => (h.kept fd c hs).1
  registered := fun fd c hs hreg => by rw [(h.kept fd c hs).2, hreg]
  turn := fun fd c hs _ h1 => by rwa [turns, h.pending_eq hsound hs, h.working_eq]

end Withdraws

/-! ## Closing -/

theorem withdraws_dropUser (s : NetServer) (a : ConnId) (fd : Nat) : Withdraws s (s.dropUser a fd) :=
  { Withdraws.refl s with kept := fun _ _ hs => ⟨⟨(Table.of_erase_eq_some hs.1).2, hs.2⟩, rfl⟩ }

/-- A number that `m_users` does not have is no longer registered. -/
theorem withdraws_removeFd (a : ConnId) (hu : s.users fd = none) : Withdraws s (s.removeFd a fd) := by
  unfold removeFd
  split
  · refine { Withdraws.refl s with epoll := ?_, kept := ?_ }
    · intro fd'
      by_cases hfd : fd' = fd
      · exact .inr (by rw [hfd]; exact Table.erase_self _ _)
      · exact .inl (Table.erase_of_ne _ hfd)
    · intro fd' c hs
      refine ⟨hs, Table.erase_of_ne _ ?_⟩
      rintro rfl
      have hs : s.users fd' = some c := hs.1
      rw [hu] at hs
      cases hs
  · exact Withdraws.refl s

theorem closeConn_conn_self (s : NetServer) (a c : ConnId) :
    (s.closeConn a c).conn c = (s.conn c).closeConn.2 := by
  unfold closeConn
  split
  · rename_i x heq
    rw [setConn_conn_self, heq]
  · rename_i fd x heq
    show (s.setConn c x).conn c = _
    rw [setConn_conn_self, heq]

theorem closeConn_accepted (s : NetServer) (a c c' : ConnId) :
    ((s.closeConn a c).conn c').accepted = (s.conn c').accepted := by
  by_cases hcc : c' = c
  · rw [hcc, closeConn_conn_self]
    unfold BaseConn.closeConn
    split <;> split <;> rfl
  · rw [closeConn_conn_of_ne s a hcc]

theorem closeConn_kind (s : NetServer) (a c : ConnId) :
    ((s.closeConn a c).conn c).kind = (s.conn c).kind := by
  rw [closeConn_conn_self]
  unfold BaseConn.closeConn
  split <;> split <;> rfl

/-- A closed `HttpConn` answers so. -/
theorem closeConn_isClosed (a : ConnId) (hk : (s.conn c).kind = .http) :
    ((s.closeConn a c).conn c).isClosed = true := by
  rw [BaseConn.isClosed_http (by rw [closeConn_kind, hk]), closeConn_closed]

theorem closeConn_epoll_cases (s : NetServer) (a c : ConnId) (fd : Nat) :
    (s.closeConn a c).epoll fd = s.epoll fd ∨ (s.closeConn a c).epoll fd = none := by
  unfold closeConn
  split
  · exact .inl rfl
  · rename_i fd' x _
    by_cases hfd : fd = fd'
    · exact .inr (by rw [hfd]; exact Table.erase_self _ _)
    · exact .inl (Table.erase_of_ne _ hfd)

theorem closeConn_events (s : NetServer) (a c : ConnId) : (s.closeConn a c).events = s.events := by
  unfold closeConn
  split <;> rfl

/-- An object is closed that is an `HttpConn` or not in `m_users`. -/
theorem withdraws_closeConn (h : s.Sound) (hl : s.Live c fd) (a : ConnId)
    (hc : (s.conn c).kind = .http ∨ ∀ fd, s.users fd ≠ some c) : Withdraws s (s.closeConn a c) where
  accepted := closeConn_accepted s a c
  owner := fun _ _ ho => closeConn_owner s a c ho
  epoll := closeConn_epoll_cases s a c
  kept := by
    rintro fd' c' ⟨hu, hopen⟩
    rw [closeConn_users] at hu
    have hne : c' ≠ c := by
      rintro rfl
      rcases hc with hk | hnone
      · rw [closeConn_isClosed a hk] at hopen
        cases hopen
      · exact hnone fd' hu
    rw [closeConn_conn_of_ne s a hne] at hopen
    exact ⟨⟨hu, hopen⟩, closeConn_epoll h hl (h.sockfd_of_users hu hopen).2.2 hne a⟩
  events := closeConn_events s a c
  tasks := closeConn_tasks s a c

theorem withdraws_closeConnection (h : s.Sound) (a : ConnId) (fd : Nat) :
    Withdraws s (s.closeConnection a fd) := by
  rcases closeConnection_cases s a fd with heq | ⟨c, hu, -, heq⟩
  · rw [heq]
    exact Withdraws.refl s
  · have htouch := removeFd_touches (s.dropUser a fd) a fd
    have hrem := (h.eraseUser fd (⟨.erase, a, s.owner fd⟩ :: s.log)).touches htouch
    have hwithout := eraseUser_ne (h.users fd c hu) (fun fd' hu' => (h.users fd' c hu').2.1)
    have hremove : Withdraws (s.dropUser a fd) ((s.dropUser a fd).removeFd a fd) :=
      withdraws_removeFd a (Table.erase_self _ _)
    have hlive : ((s.dropUser a fd).removeFd a fd).Live c fd := by
      rw [htouch.eq]
      exact h.users fd c hu
    rw [heq]
    refine ((withdraws_dropUser s a fd).trans hremove).trans (withdraws_closeConn hrem hlive a (.inr ?_))
    rw [htouch.eq]
    exact hwithout

theorem withdraws_shutdownConn (h : s.Sound) (hu : s.users fd = some c) (a : ConnId) :
    Withdraws s { s.closeConn a c with users := (s.closeConn a c).users.erase fd } := by
  have hwithout := eraseUser_ne (h.users fd c hu) (fun fd' hu' => (h.users fd' c hu').2.1)
  have hdrop : Withdraws s { s with users := s.users.erase fd } :=
    { Withdraws.refl s with kept := fun _ _ hs => ⟨⟨(Table.of_erase_eq_some hs.1).2, hs.2⟩, rfl⟩ }
  rw [eraseUser_closeConn]
  exact hdrop.trans (withdraws_closeConn (h.eraseUser fd s.log) (h.users fd c hu) a (.inr hwithout))

theorem withdraws_destroy (h : s.Sound) (hl : s.Live c fd) (hr : s.Unreferenced c) :
    Withdraws s (s.destroy c) := by
  refine (withdraws_closeConn h hl c (.inr hr.1)).trans ?_
  have hne : ∀ fd' c', (s.closeConn c c).users fd' = some c' → c' ≠ c := by
    rintro fd' c' hu rfl
    rw [closeConn_users] at hu
    exact hr.1 fd' hu
  refine { Withdraws.refl _ with accepted := ?_, kept := ?_, events := rfl, tasks := rfl }
  · intro c'
    by_cases hcc : c' = c
    · rw [hcc, destroy, setConn_conn_self]
    · rw [destroy, setConn_conn_of_ne _ hcc]
  · rintro fd' c' ⟨hu, hopen⟩
    change (s.closeConn c c).users fd' = some c' at hu
    rw [destroy, setConn_conn_of_ne _ (hne fd' c' hu)] at hopen
    exact ⟨⟨hu, hopen⟩, rfl⟩

/-- Once `closeConnection` has been called, its number is nobody's in `m_users` that is open. -/
theorem closeConnection_not_serves (h : s.Sound) (a : ConnId) (fd : Nat) (c : ConnId) :
    ¬ (s.closeConnection a fd).Serves fd c := by
  rintro ⟨hu, hopen⟩
  have hserves : s.Serves fd c := ((withdraws_closeConnection h a fd).kept fd c ⟨hu, hopen⟩).1
  rw [(closeConnection_open a hserves.1 hserves.2).1] at hu
  cases hu

/-! ## Tasks -/

/-- A live object that is not closed has the number that it was accepted with. -/
theorem Sound.sockfd_of_isClosed (h : s.Sound) (hl : s.Live c fd) (hopen : (s.conn c).isClosed = false) :
    (s.conn c).sockfd = some fd := by
  have hsound := h.conns c hl.1
  rw [← hl.2.1]
  cases hk : (s.conn c).kind with
  | http =>
    rw [BaseConn.isClosed_http hk] at hopen
    exact (hsound.http hk).mp hopen
  | webSocket => exact hsound.webSocket hk hl.2.2

/-- What a step of a task makes of the turn that it may hold: the task keeps it, its connection is no longer
    open in `m_users`, or the descriptor is armed. -/
inductive TurnEffect (s : NetServer) (c : ConnId) (fd : Nat) : Stage → NetServer → Option Stage → Prop
  | keeps {stage next : Stage} (hstage : stage.holdsTurn = true) (hnext : next.holdsTurn = true) :
      TurnEffect s c fd stage s (some next)
  | ends {stage : Stage} {s' : NetServer} {next : Option Stage} (hstage : stage.holdsTurn = true)
      (hw : Withdraws s s') (hc : ∀ fd, ¬ s'.Serves fd c) : TurnEffect s c fd stage s' next
  | rearms {stage next : Stage} (interest : Interest) (hstage : stage.holdsTurn = true)
      (hnext : next.holdsTurn = false) (hopen : stage.checksOpen = false ∨ (s.conn c).isClosed = false) :
      TurnEffect s c fd stage (s.modFd c fd interest) (some next)
  | without {stage : Stage} {s' : NetServer} (hstage : stage.holdsTurn = false) (hw : Withdraws s s') :
      TurnEffect s c fd stage s' none

theorem withdraws_refreshTimer (s : NetServer) (a : ConnId) (fd : Nat) : Withdraws s (s.refreshTimer a fd) :=
  { Withdraws.refl s with kept := fun _ _ hs => ⟨hs, rfl⟩ }

theorem runStage_turn (h : s.Sound) (hl : s.Live c fd) {stage : Stage} {answer : Answer}
    {next : Option Stage} (hinit : stage = .init → (s.conn c).closed = false)
    (hr : s.runStage c fd stage answer = some (s', next)) : TurnEffect s c fd stage s' next := by
  unfold runStage at hr
  split at hr
  · cases hr
    split_ifs
    · exact .keeps rfl rfl
    · exact .keeps rfl rfl
  · split at hr
    · cases hr
      exact .keeps rfl rfl
    · cases hr
      exact .keeps rfl rfl
    · rename_i hfailed
      cases hr
      have hk := BaseConn.process_failed_kind hfailed
      refine .ends rfl (withdraws_closeConn h hl c (.inl hk)) ?_
      rintro fd' ⟨-, hopen⟩
      rw [closeConn_isClosed c hk] at hopen
      cases hopen
  · cases hr
    unfold writeCallback
    split_ifs with hclosed
    · refine .ends rfl (Withdraws.refl s) ?_
      rintro fd' ⟨-, hopen⟩
      rw [hclosed] at hopen
      cases hopen
    · rw [Bool.not_eq_true] at hclosed
      rw [h.sockfd_of_isClosed hl hclosed]
      exact .rearms .output rfl rfl (.inr hclosed)
  · cases hr
    exact .rearms .input rfl rfl (.inl rfl)
  · cases hr
    split_ifs
    · exact .without rfl (Withdraws.refl s)
    · exact .without rfl (withdraws_refreshTimer s c fd)
  · split at hr
    · cases hr
      split_ifs
      · exact .keeps rfl rfl
      · exact .keeps rfl rfl
    · cases hr
      exact .keeps rfl rfl
    · cases hr
      exact .keeps rfl rfl
  · split at hr <;> cases hr <;> exact .keeps rfl rfl
  · cases hr
    rw [h.initConn_eq_self hl (hinit rfl)]
    exact .keeps rfl rfl
  · cases hr
    exact .rearms _ rfl rfl (.inl rfl)
  · cases hr
    exact .without rfl (withdraws_refreshTimer s c fd)
  · cases hr
    refine .ends rfl (withdraws_closeConnection h c fd) ?_
    intro fd' hs
    have hlisted := ((withdraws_closeConnection h c fd).kept fd' c hs).1.1
    obtain rfl : fd = fd' := hl.2.1.symm.trans (h.users fd' c hlisted).2.1
    exact closeConnection_not_serves h c fd c hs
  · cases hr

/-- The turns of a connection in the thread pool change with the stage of its task, -/
theorem working_setTask {i : Nat} {t : Task} (ht : s.tasks[i]? = some t) (next : Option Stage) :
    (s.setTask i t next).working t.conn + (if t.stage.holdsTurn then 1 else 0) =
      s.working t.conn + (if next.any Stage.holdsTurn then 1 else 0) := by
  cases next with
  | none =>
    have hcount := Slots.countP_eraseIdx (fun t' => decide (t'.conn = t.conn) && t'.stage.holdsTurn) ht
    simpa [working, setTask] using hcount
  | some n =>
    have hcount := Slots.countP_set (fun t' => decide (t'.conn = t.conn) && t'.stage.holdsTurn) ht
      { t with stage := n }
    simpa [working, setTask] using hcount

/-- and those of the others do not. -/
theorem working_setTask_of_ne {i : Nat} {t : Task} (ht : s.tasks[i]? = some t) (next : Option Stage)
    (hne : c ≠ t.conn) : (s.setTask i t next).working c = s.working c := by
  cases next with
  | none =>
    have hcount := Slots.countP_eraseIdx (fun t' => decide (t'.conn = c) && t'.stage.holdsTurn) ht
    simpa [working, setTask, hne.symm] using hcount
  | some n =>
    have hcount := Slots.countP_set (fun t' => decide (t'.conn = c) && t'.stage.holdsTurn) ht
      { t with stage := n }
    simpa [working, setTask, hne.symm] using hcount

theorem pending_setTask (s : NetServer) (i : Nat) (t : Task) (next : Option Stage) (c : ConnId) :
    (s.setTask i t next).pending c = s.pending c := by
  cases next <;> rfl

theorem serves_setTask {i : Nat} {t : Task} {next : Option Stage} :
    (s.setTask i t next).Serves fd c ↔ s.Serves fd c := by
  cases next <;> exact Iff.rfl

theorem epoll_setTask (s : NetServer) (i : Nat) (t : Task) (next : Option Stage) :
    (s.setTask i t next).epoll = s.epoll := by
  cases next <;> rfl

theorem pending_modFd_of_ne (hown : ∀ d, s.owner fd = some d → d = c) (hne : c' ≠ c) (interest : Interest) :
    (s.modFd c fd interest).pending c' = s.pending c' := by
  have htouch := (modFd_touches s c fd interest).eq
  unfold pending
  have hrest : (s.modFd c fd interest).owner = s.owner ∧ (s.modFd c fd interest).conn = s.conn ∧
      (s.modFd c fd interest).events = s.events := by
    rw [htouch]
    exact ⟨rfl, rfl, rfl⟩
  rw [hrest.1, hrest.2.1, hrest.2.2]
  by_cases ho : s.owner (s.conn c').accepted = some c'
  · have hfd : (s.conn c').accepted ≠ fd := by
      intro hfd
      rw [hfd] at ho
      exact hne (hown c' ho)
    have hepoll : (s.modFd c fd interest).epoll (s.conn c').accepted = s.epoll (s.conn c').accepted := by
      unfold modFd
      split_ifs
      · exact Table.insert_of_ne _ hfd _
      · rfl
    rw [hepoll]
  · rw [if_neg ho, if_neg ho]

/-- Arming the descriptor of a connection gives it at most one turn, and one if it is registered. -/
theorem pending_modFd (hl : s.Live c fd) (interest : Interest) :
    (s.modFd c fd interest).pending c ≤ s.pending c + 1 ∧
      (s.owner fd = some c → (s.epoll fd).isSome = true → 1 ≤ (s.modFd c fd interest).pending c) := by
  have htouch := (modFd_touches s c fd interest).eq
  have hrest : (s.modFd c fd interest).owner = s.owner ∧ (s.modFd c fd interest).conn = s.conn ∧
      (s.modFd c fd interest).events = s.events := by
    rw [htouch]
    exact ⟨rfl, rfl, rfl⟩
  unfold pending
  rw [hrest.1, hrest.2.1, hrest.2.2, hl.2.1]
  constructor
  · split_ifs <;> omega
  · intro ho hreg
    rw [if_pos ho, modFd_epoll_self c hreg]
    exact Nat.le_add_right _ _

/-- A step of a task passes the turns on. -/
theorem TurnEffect.passes {i : Nat} {t : Task} {next : Option Stage} (h : s.Owned)
    (ht : s.tasks[i]? = some t) (he : TurnEffect s t.conn t.fd t.stage s' next)
    (hsound : s'.Sound) : Passes s (s'.setTask i t next) := by
  have hmem := List.mem_of_getElem? ht
  have hl := h.sound.tasks t hmem
  have hnum := h.numbers.tasks t hmem
  generalize hstage : t.stage = stage at he
  cases he with
  | keeps hs hn =>
    rename_i n
    have hturns : ∀ c, (s.setTask i t (some n)).turns c = s.turns c := by
      intro c
      unfold turns
      rw [pending_setTask]
      by_cases hc : c = t.conn
      · have hcount := working_setTask ht (some n)
        rw [hstage, if_pos hs, Option.any_some, if_pos hn] at hcount
        rw [hc]
        omega
      · rw [working_setTask_of_ne ht _ hc]
    refine ⟨⟨fun c => (hturns c).le, fun _ _ hserves => hserves, fun _ _ _ hreg => hreg⟩, ?_⟩
    intro fd c _ _ h1
    rwa [hturns]
  | ends hs hw hend =>
    have ht' : s'.tasks[i]? = some t := by rw [hw.tasks, ht]
    have hwork := fun c (hc : c ≠ t.conn) => working_setTask_of_ne ht' next hc
    refine ⟨⟨?_, ?_, ?_⟩, ?_⟩
    · intro c
      unfold turns
      rw [pending_setTask]
      apply Nat.add_le_add (hw.pending_le c)
      rw [← hw.working_eq c]
      by_cases hc : c = t.conn
      · have hcount := working_setTask ht' next
        rw [hstage, if_pos hs] at hcount
        rw [hc]
        split_ifs at hcount <;> omega
      · rw [hwork c hc]
    · intro fd c hserves
      exact (hw.kept fd c (serves_setTask.mp hserves)).1
    · intro fd c hserves hreg
      rw [epoll_setTask, (hw.kept fd c (serves_setTask.mp hserves)).2, hreg]
    · intro fd c hserves _ h1
      rw [serves_setTask] at hserves
      have hc : c ≠ t.conn := by
        rintro rfl
        exact hend fd hserves
      rwa [turns, pending_setTask, hwork c hc, hw.pending_eq hsound hserves, hw.working_eq c]
  | rearms interest hs hn hopen =>
    rename_i n
    have htouch := modFd_touches s t.conn t.fd interest
    have ht' : (s.modFd t.conn t.fd interest).tasks[i]? = some t := by rw [htouch.eq, ht]
    have hwork : ∀ c, (s.modFd t.conn t.fd interest).working c = s.working c := by
      intro c
      unfold working
      rw [htouch.eq]
    have hown : ∀ d, s.owner t.fd = some d → d = t.conn := by
      intro d hd
      rcases hnum d hd with hdc | ⟨hchecks, hclosed⟩
      · exact hdc
      · rw [hstage] at hchecks
        rw [hchecks, hclosed] at hopen
        rcases hopen with hopen | hopen <;> cases hopen
    obtain ⟨hle, hpos⟩ := pending_modFd hl interest
    have hcount := working_setTask ht' (some n)
    rw [hstage, if_pos hs, Option.any_some, if_neg (by simp [hn]), hwork] at hcount
    have hserves : ∀ fd c, ((s.modFd t.conn t.fd interest).setTask i t (some n)).Serves fd c →
        s.Serves fd c := by
      intro fd c hserves
      rw [serves_setTask, htouch.eq] at hserves
      exact hserves
    refine ⟨⟨?_, hserves, ?_⟩, ?_⟩
    · intro c
      unfold turns
      rw [pending_setTask]
      by_cases hc : c = t.conn
      · rw [hc]
        omega
      · rw [pending_modFd_of_ne hown hc, working_setTask_of_ne ht' _ hc, hwork]
    · intro fd c _ hreg
      rw [epoll_setTask, modFd_epoll, hreg]
    · intro fd c hs' hreg h1
      unfold turns
      rw [pending_setTask]
      by_cases hc : c = t.conn
      · obtain ⟨hu, hopen⟩ := hserves fd c hs'
        have ho := (h.sound.sockfd_of_users hu hopen).2.2
        obtain rfl : fd = t.fd := (h.sound.owner_some ho).2.symm.trans (by rw [hc, hl.2.1])
        rw [hc] at ho ⊢
        exact Nat.le_add_right_of_le (hpos ho hreg)
      · rwa [pending_modFd_of_ne hown hc, working_setTask_of_ne ht' _ hc, hwork]
  | without hs hw =>
    have ht' : s'.tasks[i]? = some t := by rw [hw.tasks, ht]
    have hwork : ∀ c, (s'.setTask i t none).working c = s.working c := by
      intro c
      rw [← hw.working_eq c]
      by_cases hc : c = t.conn
      · have hcount := working_setTask ht' none
        rw [hstage, if_neg (by simp [hs]), Option.any_none] at hcount
        rw [hc]
        exact hcount
      · exact working_setTask_of_ne ht' none hc
    refine ⟨⟨?_, ?_, ?_⟩, ?_⟩
    · intro c
      unfold turns
      rw [hwork]
      exact Nat.add_le_add_right (hw.pending_le c) _
    · exact fun fd c hserves => (hw.kept fd c hserves).1
    · intro fd c hserves hreg
      rw [epoll_setTask, (hw.kept fd c hserves).2, hreg]
    · intro fd c hserves _ h1
      rwa [turns, hwork, pending_setTask, hw.pending_eq hsound hserves]

theorem passes_work (h : s.Owned) {i : Nat} {answer : Answer} (ho : s.Orderly (.work i answer))
    (hr : s.work i answer = some s') : Passes s s' := by
  unfold work at hr
  split at hr
  · cases hr
  · rename_i t ht
    split at hr
    · cases hr
    · rename_i s₁ next hstage
      cases hr
      have hl := h.sound.tasks t (List.mem_of_getElem? ht)
      have hinit : t.stage = .init → (s.conn t.conn).closed = false := ho.2 t ht
      have hsound := h.sound.stage hl (runStage_effect h.sound hl hstage) (fun hi _ => hinit hi)
      exact (runStage_turn h.sound hl hinit hstage).passes h ht hsound

/-! ## Events -/

theorem countP_events (events : List Event) (fd : Nat) :
    events.countP (fun e => e.fd = some fd) = (events.filterMap Event.fd).count fd := by
  induction events with
  | nil => rfl
  | cons e events ih =>
    rw [List.countP_cons, ih]
    cases he : e.fd with
    | none => simp [List.filterMap_cons_none he]
    | some fd' => simp [List.filterMap_cons_some he, List.count_cons]

theorem ready_armed {e : Event} (hfd : e.fd = some fd) (hready : s.ready e = true) :
    (s.epoll fd).join.isSome = true := by
  cases e with
  | connection => cases hfd
  | signal => cases hfd
  | input => cases hfd; simp_all [ready]
  | output => cases hfd; simp_all [ready]
  | hangup => cases hfd; simp_all [ready]

theorem disarm_of_mem {fds : List Nat} (h : fd ∈ fds) : ((s.disarm fds).epoll fd).join.isSome = false := by
  unfold disarm
  simp only [if_pos h]
  cases s.epoll fd <;> rfl

theorem disarm_of_not_mem {fds : List Nat} (h : fd ∉ fds) : (s.disarm fds).epoll fd = s.epoll fd := by
  unfold disarm
  simp only [if_neg h]

/-- A report turns armed descriptors into events. -/
theorem pending_epollWait {events : List Event} (hnone : s.events = [])
    (hdistinct : (events.filterMap Event.fd).Nodup) (hready : ∀ e ∈ events, s.ready e = true) (c : ConnId) :
    ({ s.disarm (events.filterMap Event.fd) with events := events, ticking := true } : NetServer).pending c =
      s.pending c := by
  unfold pending
  rw [hnone, List.countP_nil, Nat.add_zero]
  refine if_congr Iff.rfl ?_ rfl
  show (if ((s.disarm (events.filterMap Event.fd)).epoll (s.conn c).accepted).join.isSome then 1 else 0) +
    events.countP (fun e => e.fd = some (s.conn c).accepted) = _
  rw [countP_events, hdistinct.count]
  by_cases hmem : (s.conn c).accepted ∈ events.filterMap Event.fd
  · obtain ⟨e, he, hfd⟩ := List.mem_filterMap.mp hmem
    rw [if_pos hmem, if_pos (ready_armed hfd (hready e he)), disarm_of_mem hmem]
    rfl
  · rw [if_neg hmem, disarm_of_not_mem hmem, Nat.add_zero]

theorem passes_epollWait {events : List Event} (hnone : s.events = [])
    (hdistinct : (events.filterMap Event.fd).Nodup) (hready : ∀ e ∈ events, s.ready e = true) :
    Passes s { s.disarm (events.filterMap Event.fd) with events := events, ticking := true } := by
  have hturns : ∀ c, ({ s.disarm (events.filterMap Event.fd) with
      events := events, ticking := true } : NetServer).turns c = s.turns c :=
    fun c => congrArg (· + s.working c) (pending_epollWait hnone hdistinct hready c)
  refine ⟨⟨fun c => (hturns c).le, fun _ _ hs => hs, ?_⟩, fun _ c _ _ h1 => by rwa [hturns c]⟩
  intro fd c _ hreg
  show ((s.disarm (events.filterMap Event.fd)).epoll fd).isSome = true
  rw [disarm_epoll, hreg]

/-- What the handling of an event makes of the turn that it is. -/
inductive EventTurn (s : NetServer) (e : Event) : Answer → NetServer → Prop
  | quiet {answer : Answer} (isRunning : Bool)
      (hnone : e.isHangup = false → ∀ fd ∈ e.fd, ∀ c, ¬ s.Serves fd c) :
      EventTurn s e answer { s with isRunning := isRunning }
  | accept {kind : ConnKind} {fd : Nat} (he : e.fd = none) (hfree : s.owner fd = none) :
      EventTurn s e (.accept (some fd)) (s.handleNewConnection kind fd)
  | addTask {answer : Answer} {c : ConnId} {fd : Nat} {stage : Stage} (he : e.fd = some fd)
      (hs : s.Serves fd c) (hstage : stage.holdsTurn = true) :
      EventTurn s e answer (s.addTask ⟨c, fd, stage⟩)
  | closeConnection {answer : Answer} {c : ConnId} {fd : Nat} (he : e.fd = some fd) :
      EventTurn s e answer (s.closeConnection c fd)

theorem handleEvent_turn {model : ActorModel} {e : Event} {answer : Answer}
    (hr : s.handleEvent model e answer = some s') : EventTurn s e answer s' := by
  have hunserved : ∀ fd, s.users fd = none → ∀ c, ¬ s.Serves fd c := by
    rintro fd hnone c ⟨hu, -⟩
    rw [hnone] at hu
    cases hu
  have hclosed : ∀ fd c, s.users fd = some c → (s.conn c).isClosed = true → ∀ c', ¬ s.Serves fd c' := by
    rintro fd c hc hclosed c' ⟨hu, hopen⟩
    rw [hc] at hu
    cases hu
    rw [hclosed] at hopen
    cases hopen
  unfold handleEvent at hr
  split at hr
  · cases hr
    exact .quiet s.isRunning (fun _ fd hfd => by cases hfd)
  · split at hr
    · rename_i hfree
      cases hr
      exact .accept rfl hfree.2
    · cases hr
  · cases hr
    exact .quiet _ (fun _ fd hfd => by cases hfd)
  · cases hr
    unfold handleReadEvent
    split
    · rename_i hnone
      exact .quiet s.isRunning (fun _ fd hfd => by cases hfd; exact hunserved _ hnone)
    · rename_i c hu
      split
      · rename_i hc
        exact .quiet s.isRunning (fun _ fd hfd => by cases hfd; exact hclosed _ c hu hc)
      · rename_i hc
        rw [Bool.not_eq_true] at hc
        cases model with
        | Reactor => exact .addTask rfl ⟨hu, hc⟩ rfl
        | Proactor =>
          dsimp only
          split_ifs
          · exact .addTask rfl ⟨hu, hc⟩ rfl
          · exact .closeConnection rfl
  · cases hr
    unfold handleWriteEvent
    split
    · rename_i hnone
      exact .quiet s.isRunning (fun _ fd hfd => by cases hfd; exact hunserved _ hnone)
    · rename_i c hu
      split_ifs with hc
      · exact .quiet s.isRunning (fun _ fd hfd => by cases hfd; exact hclosed _ c hu hc)
      · rw [Bool.not_eq_true] at hc
        exact .addTask rfl ⟨hu, hc⟩ rfl
  · cases hr
    exact .quiet s.isRunning (fun hheeds => by cases hheeds)
  · cases hr

/-- An event that is taken off the list. -/
def popEvent (s : NetServer) (events : List Event) : NetServer := { s with events := events, ticking := false }

theorem pending_popEvent {e : Event} {events : List Event} (he : s.events = e :: events) (c : ConnId) :
    s.pending c = (s.popEvent events).pending c +
      if s.owner (s.conn c).accepted = some c ∧ e.fd = some (s.conn c).accepted then 1 else 0 := by
  unfold pending popEvent
  dsimp only
  rw [he, List.countP_cons]
  by_cases ho : s.owner (s.conn c).accepted = some c
  · rw [if_pos ho, if_pos ho]
    simp only [ho, true_and, decide_eq_true_eq]
    rw [Nat.add_assoc]
  · rw [if_neg ho, if_neg ho, if_neg (fun hc => ho hc.1)]

theorem withdraws_popEvent_passes {e : Event} {events : List Event} (he : s.events = e :: events)
    (hw : Withdraws (s.popEvent events) s') (hsound : s'.Sound)
    (hother : e.isHangup = false → ∀ fd ∈ e.fd, ∀ c, ¬ s'.Serves fd c) : Yields s s' ∧
      (e.isHangup = false → Passes s s') := by
  have hle : ∀ c, s'.turns c ≤ s.turns c := by
    intro c
    have hpop := pending_popEvent he c
    have hpend := hw.pending_le c
    have hwork : s'.working c = s.working c := hw.working_eq c
    unfold turns
    omega
  have hyields : Yields s s' := by
    refine ⟨hle, fun fd c hs => (hw.kept fd c hs).1, ?_⟩
    intro fd c hs hreg
    rw [(hw.kept fd c hs).2]
    exact hreg
  refine ⟨hyields, fun hheeds => ⟨hyields, ?_⟩⟩
  intro fd c hs _ h1
  have hacc : (s.conn c).accepted = fd := by
    rw [← (hsound.users fd c hs.1).2.1]
    exact (hw.accepted c).symm
  have hpop := pending_popEvent he c
  have hpend := hw.pending_eq hsound hs
  have hwork : s'.working c = s.working c := hw.working_eq c
  rw [if_neg] at hpop
  · unfold turns at h1 ⊢
    omega
  · rintro ⟨-, hfd⟩
    rw [hacc] at hfd
    exact hother hheeds fd hfd c hs

/-- The turn of an event becomes the turn of a task. -/
theorem passes_addTask {e : Event} {events : List Event} {stage : Stage} (h : s.Sound)
    (he : s.events = e :: events) (hfd : e.fd = some fd) (hs : s.Serves fd c)
    (hstage : stage.holdsTurn = true) : Passes s ((s.popEvent events).addTask ⟨c, fd, stage⟩) := by
  have ho := (h.sockfd_of_users hs.1 hs.2).2.2
  have hacc := (h.owner_some ho).2
  have hturns : ∀ c', ((s.popEvent events).addTask ⟨c, fd, stage⟩).turns c' = s.turns c' := by
    intro c'
    have hpop := pending_popEvent he c'
    have hpend : ((s.popEvent events).addTask ⟨c, fd, stage⟩).pending c' = (s.popEvent events).pending c' := rfl
    have hwork : ((s.popEvent events).addTask ⟨c, fd, stage⟩).working c' =
        s.working c' + if c = c' then 1 else 0 := by
      simp [working, addTask, popEvent, List.countP_append, hstage]
    unfold turns
    rw [hpend, hwork, hpop]
    by_cases hc : c = c'
    · rw [if_pos hc, if_pos, Nat.add_right_comm, Nat.add_assoc]
      rw [← hc, hacc]
      exact ⟨ho, hfd⟩
    · rw [if_neg hc, if_neg]
      · rfl
      · rintro ⟨ho', hfd'⟩
        rw [hfd] at hfd'
        rw [← Option.some.inj hfd', ho] at ho'
        exact hc (Option.some.inj ho')
  exact ⟨⟨fun c' => (hturns c').le, fun _ _ hs => hs, fun _ _ _ hreg => hreg⟩,
    fun _ c' _ _ h1 => by rwa [hturns c']⟩

/-! ## A new connection -/

/-- A new connection gets one turn, and the others keep theirs. -/
theorem turns_handleNewConnection (h : s.Sound) (hfree : s.owner fd = none)
    (hevents : ∀ e ∈ s.events, e.fd ≠ some fd) (kind : ConnKind) (c : ConnId) :
    (s.handleNewConnection kind fd).turns c = if c = s.next then 1 else s.turns c := by
  have hwork : (s.handleNewConnection kind fd).working c = s.working c := rfl
  by_cases hc : c = s.next
  · have hzero : s.working c = 0 := by
      rw [working, List.countP_eq_zero]
      intro t ht
      have hlt := (h.tasks t ht).1
      have hne : t.conn ≠ c := by
        rw [hc]
        exact Nat.ne_of_lt hlt
      simp [hne]
    have hself : ((s.handleNewConnection kind fd).conn c).accepted = fd := by
      rw [hc, handleNewConnection_conn_self, BaseConn.init_accepted]
      rfl
    have hnone : s.events.countP (fun e => e.fd = some fd) = 0 := by
      rw [List.countP_eq_zero]
      intro e he
      simp [hevents e he]
    rw [if_pos hc, turns, hwork, hzero, pending, hself]
    show (if s.owner.insert fd s.next fd = some c then
      (if (s.epoll.insert fd (some .input) fd).join.isSome then 1 else 0) +
        s.events.countP (fun e => e.fd = some fd) else 0) + 0 = 1
    rw [Table.insert_self, Table.insert_self, hnone, hc, if_pos rfl]
    rfl
  · rw [if_neg hc, turns, turns, hwork]
    congr 1
    unfold pending
    rw [handleNewConnection_conn_of_ne s kind fd hc]
    show (if s.owner.insert fd s.next (s.conn c).accepted = some c then
      (if (s.epoll.insert fd (some .input) (s.conn c).accepted).join.isSome then 1 else 0) +
        s.events.countP (fun e => e.fd = some (s.conn c).accepted) else 0) = _
    by_cases hfd : (s.conn c).accepted = fd
    · rw [hfd, Table.insert_self, hfree, if_neg (fun heq => hc (Option.some.inj heq).symm), if_neg (by simp)]
    · rw [Table.insert_of_ne _ hfd, Table.insert_of_ne _ hfd]

/-- A connection is made that gets one turn and is registered, and nothing happens to the others. -/
structure Accepts (s s' : NetServer) : Prop where
  turns : ∀ c, s'.turns c = if c = s.next then 1 else s.turns c
  serves : ∀ fd c, s'.Serves fd c → c = s.next ∧ (s'.epoll fd).isSome = true ∨
    c ≠ s.next ∧ s.Serves fd c ∧ s'.epoll fd = s.epoll fd

theorem accepts_handleNewConnection (h : s.Sound) (hfree : s.owner fd = none)
    (hevents : ∀ e ∈ s.events, e.fd ≠ some fd) (kind : ConnKind) :
    Accepts s (s.handleNewConnection kind fd) where
  turns := turns_handleNewConnection h hfree hevents kind
  serves := by
    rintro fd' c ⟨hu, hopen⟩
    change s.users.insert fd s.next fd' = some c at hu
    by_cases hfd : fd' = fd
    · rw [hfd, Table.insert_self] at hu
      refine .inl ⟨(Option.some.inj hu).symm, ?_⟩
      show (s.epoll.insert fd (some .input) fd').isSome = true
      rw [hfd, Table.insert_self]
      rfl
    · rw [Table.insert_of_ne _ hfd] at hu
      have hne : c ≠ s.next := Nat.ne_of_lt (h.users fd' c hu).1
      rw [handleNewConnection_conn_of_ne s kind fd hne] at hopen
      exact .inr ⟨hne, ⟨hu, hopen⟩, Table.insert_of_ne _ hfd _⟩

/-- The handling of an event passes its turn on, or makes a connection. -/
theorem EventTurn.turns {e : Event} {events : List Event} {answer : Answer} (h : s.Sound)
    (he : s.events = e :: events) (ht : EventTurn (s.popEvent events) e answer s') (hsound : s'.Sound)
    (hevents : ∀ fd ∈ (Action.handle answer).accepts, ∀ e ∈ events, e.fd ≠ some fd) :
    (Yields s s' ∧ (e.isHangup = false → Passes s s')) ∨ Accepts s s' := by
  have hsound₀ : (s.popEvent events).Sound :=
    ⟨⟨h.users, h.usersOpen, h.tasks⟩, h.conns, h.owner, h.epoll⟩
  cases ht with
  | quiet isRunning hnone =>
    have hw : Withdraws (s.popEvent events) { s.popEvent events with isRunning := isRunning } :=
      { Withdraws.refl (s.popEvent events) with kept := fun _ _ hs => ⟨hs, rfl⟩ }
    exact .inl (withdraws_popEvent_passes he hw hsound hnone)
  | accept hnone hfree =>
    have haccepts := accepts_handleNewConnection hsound₀ hfree (hevents _ rfl) ‹_›
    refine .inr ⟨?_, haccepts.serves⟩
    intro c
    have hpop := pending_popEvent he c
    rw [hnone, if_neg (by simp), Nat.add_zero] at hpop
    rw [haccepts.turns c, turns, turns, hpop]
    rfl
  | addTask hfd hs hstage =>
    have hp := passes_addTask h he hfd hs hstage
    exact .inl ⟨hp.toYields, fun _ => hp⟩
  | closeConnection hfd =>
    rename_i c fd
    refine .inl (withdraws_popEvent_passes he (withdraws_closeConnection hsound₀ c fd) hsound ?_)
    intro _ fd' hfd' c'
    rw [hfd] at hfd'
    cases hfd'
    exact closeConnection_not_serves hsound₀ c fd c'

/-! ## Runs -/

/-- A task of a connection is over, or is to find it closed, when its number is accepted again, and no event
    of the number is left then; no closed connection is initialised again. -/
def TakesTurns (s : NetServer) (action : Action) : Prop := s.Orderly action ∧ s.Fresh action

instance (s : NetServer) (action : Action) : Decidable (s.TakesTurns action) :=
  inferInstanceAs (Decidable (_ ∧ _))

/-- A step passes the turns on or makes a connection with a turn. -/
theorem step_turns (h : s.Owned) {model : ActorModel} {action : Action} (ht : s.TakesTurns action)
    (hr : step model s action = some s') :
    (Yields s s' ∧ (s.Heeds action → Passes s s')) ∨ Accepts s s' := by
  have hsound' := (h.step ht.1 hr).sound
  have hpasses : Passes s s' → (Yields s s' ∧ (s.Heeds action → Passes s s')) ∨ Accepts s s' :=
    fun hp => .inl ⟨hp.toYields, fun _ => hp⟩
  cases action with
  | epollWait events =>
    simp only [step] at hr
    split at hr
    · rename_i hwait
      cases hr
      exact hpasses (passes_epollWait hwait.2.1 hwait.2.2.1 hwait.2.2.2)
    · cases hr
  | expire fd =>
    simp only [step] at hr
    split at hr
    · cases hr
    · split at hr
      · cases hr
        rename_i c _ _
        have hw := withdraws_closeConnection h.sound c fd
        have hw' : Withdraws s { s.closeConnection c fd with
            timers := (s.closeConnection c fd).timers.erase fd } :=
          ⟨hw.accepted, hw.owner, hw.epoll, hw.kept, hw.events, hw.tasks⟩
        exact hpasses (hw'.passes hsound')
      · cases hr
  | handle answer =>
    simp only [step] at hr
    split at hr
    · cases hr
    · rename_i e events he
      have hhead : s.handled (.handle answer) = some e := by
        rw [handled, he, List.head?_cons]
      have hevents : ∀ fd ∈ (Action.handle answer).accepts, ∀ e' ∈ events, e'.fd ≠ some fd :=
        fun fd hfd e' he' => ht.2 fd hfd e' (by rw [he]; exact List.mem_cons_of_mem _ he')
      rcases (handleEvent_turn hr).turns h.sound he hsound' hevents with hy | ha
      · exact .inl ⟨hy.1, fun hh => hy.2 (hh e hhead)⟩
      · exact .inr ha
  | work i answer =>
    exact hpasses (passes_work h ht.1 hr)
  | destroy c =>
    simp only [step] at hr
    split at hr
    · rename_i hc
      cases hr
      have hr := unreferenced_of_isReferenced h.sound hc.2.2
      exact hpasses ((withdraws_destroy h.sound ⟨hc.1, rfl, hc.2.1⟩ hr).passes hsound')
    · cases hr
  | shutdownConn fd =>
    simp only [step] at hr
    split at hr
    · cases hr
    · rename_i c hu
      split at hr
      · cases hr
      · cases hr
        exact hpasses ((withdraws_shutdownConn h.sound hu c).passes hsound')

/-- No connection has two turns. -/
structure TurnTaking (s : NetServer) : Prop where
  owned : s.Owned
  once : ∀ c, s.turns c ≤ 1

theorem turnTaking_start : TurnTaking start where
  owned := owned_start
  once := by simp [turns, pending, working, start]

theorem TurnTaking.step (h : s.TurnTaking) {model : ActorModel} {action : Action}
    (ht : s.TakesTurns action) (hr : step model s action = some s') : s'.TurnTaking := by
  refine ⟨h.owned.step ht.1 hr, ?_⟩
  intro c
  rcases step_turns h.owned ht hr with ⟨hy, -⟩ | ha
  · exact (hy.le c).trans (h.once c)
  · rw [ha.turns c]
    split_ifs
    · exact Nat.le_refl 1
    · exact h.once c

/-- Moreover every connection that is open in `m_users` is registered and has a turn. -/
structure Attended (s : NetServer) : Prop where
  taking : s.TurnTaking
  registered : ∀ fd c, s.Serves fd c → (s.epoll fd).isSome = true
  turn : ∀ fd c, s.Serves fd c → 1 ≤ s.turns c

theorem attended_start : Attended start where
  taking := turnTaking_start
  registered := by simp [Serves, start]
  turn := by simp [Serves, start]

theorem Attended.step (h : s.Attended) {model : ActorModel} {action : Action}
    (ht : s.TakesTurns action ∧ s.Heeds action) (hr : step model s action = some s') : s'.Attended := by
  have htaking := h.taking.step ht.1 hr
  rcases step_turns h.taking.owned ht.1 hr with ⟨-, hpass⟩ | ha
  · have hp := hpass ht.2
    have hreg := fun fd c hs => h.registered fd c (hp.serves fd c hs)
    refine ⟨htaking, fun fd c hs => hp.registered fd c hs (hreg fd c hs), ?_⟩
    intro fd c hs
    exact hp.turn fd c hs (hreg fd c hs) (h.turn fd c (hp.serves fd c hs))
  · refine ⟨htaking, ?_, ?_⟩
    · intro fd c hs
      rcases ha.serves fd c hs with ⟨-, hreg⟩ | ⟨-, hs, hepoll⟩
      · exact hreg
      · rw [hepoll]
        exact h.registered fd c hs
    · intro fd c hs
      rw [ha.turns c]
      rcases ha.serves fd c hs with ⟨hc, -⟩ | ⟨hc, hs, -⟩
      · rw [if_pos hc]
      · rw [if_neg hc]
        exact h.turn fd c hs

/-- **No connection is forgotten**: in every run that takes turns and drops no event, a connection that is
    open in `m_users` is registered, and its descriptor is armed, an event of it is waiting for the main
    thread, or a task has still to arm the descriptor or to close the connection. -/
theorem run_attends {model : ActorModel} {actions : List Action} {s : NetServer}
    (ht : Transition.Meets (step model) (fun s a => s.TakesTurns a ∧ s.Heeds a) start actions)
    (hr : Transition.run (step model) start actions = some s) {fd : Nat} {c : ConnId}
    (hu : s.users fd = some c) (hopen : (s.conn c).isClosed = false) :
    (s.epoll fd).isSome = true ∧ ((s.epoll fd).join.isSome = true ∨ (∃ e ∈ s.events, e.fd = some fd) ∨
      ∃ t ∈ s.tasks, t.conn = c ∧ t.stage.holdsTurn = true) := by
  have h : s.Attended := Transition.run_invariant (fun s a s' h ht hr => h.step ht hr) attended_start ht hr
  refine ⟨h.registered fd c ⟨hu, hopen⟩, ?_⟩
  have hturn := h.turn fd c ⟨hu, hopen⟩
  by_contra hnone
  simp only [not_or, not_exists, not_and, Bool.not_eq_true] at hnone
  obtain ⟨harmed, hevents, htasks⟩ := hnone
  have hpending : s.pending c = 0 := by
    have hacc := (h.taking.owned.sound.users fd c hu).2.1
    have hzero : s.events.countP (fun e => e.fd = some fd) = 0 := by
      rw [List.countP_eq_zero]
      intro e he
      simp [hevents e he]
    rw [pending, hacc, harmed, hzero]
    exact ite_self 0
  have hworking : s.working c = 0 := by
    rw [working, List.countP_eq_zero]
    intro t ht hholds
    simp only [Bool.and_eq_true, decide_eq_true_eq] at hholds
    have hfalse := htasks t ht hholds.1
    rw [hholds.2] at hfalse
    cases hfalse
  rw [turns, hpending, hworking] at hturn
  cases hturn

theorem run_attends_answerAndReuse :
    ∃ s, Transition.run (step .Proactor) start answerAndReuse = some s ∧ s.users 5 = some 1 ∧
      ((s.epoll 5).isSome = true ∧ ((s.epoll 5).join.isSome = true ∨ (∃ e ∈ s.events, e.fd = some 5) ∨
        ∃ t ∈ s.tasks, t.conn = 1 ∧ t.stage.holdsTurn = true)) :=
  ⟨_, rfl, rfl, run_attends (by decide : Transition.Meets (step .Proactor)
    (fun s a => s.TakesTurns a ∧ s.Heeds a) start answerAndReuse) rfl rfl rfl⟩

/-- A connection's timer expires and its number is accepted again before an event of it is handled: the event
    makes a task for the new connection, whose descriptor is armed all the same. -/
example : ∃ s, Transition.run (step .Reactor) start
    [.epollWait [.connection .http], .handle (.accept (some 5)), .epollWait [.connection .http, .input 5],
      .expire 5, .handle (.accept (some 5)), .handle (.read true)] = some s ∧ s.turns 1 = 2 :=
  ⟨_, rfl, by decide⟩

/-- A hangup that comes without input is dropped, and its connection left without a turn. -/
example : ∃ s, Transition.run (step .Reactor) start
    [.epollWait [.connection .http], .handle (.accept (some 5)), .epollWait [.hangup 5], .handle .none] =
      some s ∧ s.users 5 = some 0 ∧ s.turns 0 = 0 :=
  ⟨_, rfl, by decide⟩

end NetServer

end ModularNetServer
