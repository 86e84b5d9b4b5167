import ModularNetServer.Net.Proofs.NetServerProofs

/-!
# The table of connections

`closeConnection` drops a connection from `m_users` and from epoll before it closes it, but `process`
closes a connection for which no response could be built and drops it from nothing. In runs in which
that does not happen to a connection in `m_users`, and in which no closed `HttpConn` is initialised
again, every `HttpConn` in `m_users` is open and registered.
-/

namespace ModularNetServer

namespace NetServer

variable {s s' : NetServer} {a c c' : ConnId} {fd fd' : Nat} {x : BaseConn}

/-- No `process` call closes a connection that `m_users` has, and no closed `HttpConn` is initialised
    again. -/
def Tidy (s : NetServer) (action : Action) : Prop :=
  (∀ t ∈ s.worked action, t.stage = .process → action.fails = true →
    (s.conn t.conn).kind = .http → s.users t.fd ≠ some t.conn) ∧ s.KeepsClosed action

instance (s : NetServer) (action : Action) : Decidable (s.KeepsClosed action) :=
  inferInstanceAs (Decidable (∀ t ∈ s.worked action, t.stage = .init →
    (s.conn t.conn).kind = .http → (s.conn t.conn).closed = false))

instance (s : NetServer) (action : Action) : Decidable (s.Tidy action) :=
  inferInstanceAs (Decidable (_ ∧ _))

/-- What every tidy step keeps. -/
structure Registered (s : NetServer) : Prop where
  sound : s.Sound
  http : ∀ fd c, s.users fd = some c → (s.conn c).kind = .http →
    (s.conn c).closed = false ∧ (s.epoll fd).isSome = true

theorem registered_start : Registered start where
  sound := sound_start
  http := by simp [start]

/-- Closing an object leaves the registrations of the others alone. -/
theorem closeConn_epoll (h : s.Sound) (hl : s.Live c fd) (ho : s.owner fd' = some c') (hne : c' ≠ c)
    (a : ConnId) : (s.closeConn a c).epoll fd' = s.epoll fd' := by
  rcases closeConn_cases h hl a with ⟨-, -, heq⟩ | ⟨-, -, heq⟩ | ⟨-, hown, heq⟩
  · rw [heq]
  · rw [heq]
    rfl
  · rw [heq]
    apply Table.erase_of_ne
    rintro rfl
    rw [hown] at ho
    exact hne (Option.some.inj ho).symm

namespace Registered

/-- The entries of `m_users` that are left when an object is closed. -/
theorem closeConn (h : s.Registered) (hl : s.Live c fd) (a : ConnId)
    (hu : ∀ fd, s.users fd ≠ some c) (hk : (s.conn c).kind = .webSocket → (s.conn c).closed = false) :
    (s.closeConn a c).Registered := by
  refine ⟨h.sound.closeConn hl a (fun hk' => ⟨hk hk', hu⟩), ?_⟩
  intro fd' c' hu' hk'
  rw [closeConn_users] at hu'
  have hne : c' ≠ c := by
    rintro rfl
    exact hu fd' hu'
  rw [closeConn_conn_of_ne s a hne] at hk' ⊢
  obtain ⟨hopen, hreg⟩ := h.http fd' c' hu' hk'
  have ho := (h.sound.sockfd_of_users hu' (by rw [BaseConn.isClosed_http hk', hopen])).2.2
  rw [closeConn_epoll h.sound hl ho hne]
  exact ⟨hopen, hreg⟩

theorem eraseUser (h : s.Registered) (fd : Nat) (log : List Act) :
    ({ s with users := s.users.erase fd, log := log } : NetServer).Registered := by
  refine ⟨h.sound.eraseUser fd log, ?_⟩
  intro fd' c' hu
  exact h.http fd' c' (Table.of_erase_eq_some hu).2

theorem removeFd (h : s.Registered) (a : ConnId) (hu : s.users fd = none) :
    (s.removeFd a fd).Registered := by
  have htouch := removeFd_touches s a fd
  refine ⟨h.sound.touches htouch, ?_⟩
  intro fd' c' hu' hk'
  rw [htouch.eq] at hu' hk' ⊢
  have hfd : fd' ≠ fd := by
    rintro rfl
    rw [hu] at hu'
    cases hu'
  obtain ⟨hopen, hreg⟩ := h.http fd' c' hu' hk'
  refine ⟨hopen, ?_⟩
  show ((s.removeFd a fd).epoll fd').isSome = true
  unfold NetServer.removeFd
  split
  · rw [← hreg]
    exact congrArg _ (Table.erase_of_ne _ hfd)
  · exact hreg

theorem closeConnection (h : s.Registered) (a : ConnId) (fd : Nat) :
    (s.closeConnection a fd).Registered := by
  rcases closeConnection_cases s a fd with heq | ⟨c, hu, hopen, heq⟩
  · rw [heq]
    exact h
  · have hl := h.sound.users fd c hu
    have hwithout := eraseUser_ne hl (fun fd' hu' => (h.sound.users fd' c hu').2.1)
    have htouch := removeFd_touches (s.dropUser a fd) a fd
    have hrem := (h.eraseUser fd (⟨.erase, a, s.owner fd⟩ :: s.log)).removeFd a (Table.erase_self _ _)
    have hclosed := (h.sound.sockfd_of_users hu hopen).1
    rw [heq]
    change ((s.dropUser a fd).removeFd a fd).Registered at hrem
    rw [htouch.eq] at hrem ⊢
    exact hrem.closeConn hl a hwithout (fun _ => hclosed)

theorem shutdownConn (h : s.Registered) (hu : s.users fd = some c) (a : ConnId) :
    ({ s.closeConn a c with users := (s.closeConn a c).users.erase fd } : NetServer).Registered := by
  have hl := h.sound.users fd c hu
  have hwithout := eraseUser_ne hl (fun fd' hu' => (h.sound.users fd' c hu').2.1)
  rw [eraseUser_closeConn]
  exact (h.eraseUser fd s.log).closeConn hl a hwithout (h.sound.usersOpen fd c hu)

theorem destroy (h : s.Registered) (hl : s.Live c fd) (hr : s.Unreferenced c) :
    (s.destroy c).Registered := by
  refine ⟨h.sound.destroy hl hr, ?_⟩
  intro fd' c' hu hk
  change (s.closeConn c c).users fd' = some c' at hu
  rw [closeConn_users] at hu
  have hne : c' ≠ c := by
    rintro rfl
    exact hr.1 fd' hu
  have hconn : (s.destroy c).conn c' = s.conn c' := by
    rw [NetServer.destroy, setConn_conn_of_ne _ hne, closeConn_conn_of_ne s c hne]
  rw [hconn] at hk ⊢
  obtain ⟨hopen, hreg⟩ := h.http fd' c' hu hk
  have ho := (h.sound.sockfd_of_users hu (by rw [BaseConn.isClosed_http hk, hopen])).2.2
  refine ⟨hopen, ?_⟩
  show ((s.closeConn c c).epoll fd').isSome = true
  rw [closeConn_epoll h.sound hl ho hne, hreg]

theorem initConn (h : s.Registered) (hl : s.Live c fd)
    (hkeeps : (s.conn c).kind = .http → (s.conn c).closed = false) :
    (s.initConn c fd).Registered := by
  have hsound := h.sound.initConn hl hkeeps
  cases hk : (s.conn c).kind with
  | http =>
    rw [h.sound.initConn_eq_self hl (hkeeps hk)]
    exact h
  | webSocket =>
    refine ⟨hsound, ?_⟩
    intro fd' c' hu' hk'
    unfold NetServer.initConn at hk' ⊢
    by_cases hcc : c' = c
    · rw [hcc, setConn_conn_self, BaseConn.init_kind, hk] at hk'
      cases hk'
    · rw [setConn_conn_of_ne s hcc] at hk' ⊢
      exact h.http fd' c' hu' hk'

theorem handleNewConnection (h : s.Registered) (kind : ConnKind) (hfree : s.owner fd = none) :
    (s.handleNewConnection kind fd).Registered := by
  refine ⟨h.sound.handleNewConnection kind hfree, ?_⟩
  intro fd' c' hu hk
  change s.users.insert fd s.next fd' = some c' at hu
  show _ ∧ (s.epoll.insert fd (some .input) fd').isSome = true
  by_cases hfd : fd' = fd
  · subst hfd
    rw [Table.insert_self] at hu ⊢
    rw [← Option.some.inj hu, handleNewConnection_conn_self, BaseConn.init_closed]
    exact ⟨rfl, rfl⟩
  · rw [Table.insert_of_ne _ hfd] at hu ⊢
    have hlt := (h.sound.users fd' c' hu).1
    rw [handleNewConnection_conn_of_ne s kind fd (Nat.ne_of_lt hlt)] at hk ⊢
    exact h.http fd' c' hu hk

theorem stage (h : s.Registered) (hl : s.Live c fd) {answer : Answer} {stage : Stage}
    {next : Option Stage} (he : StageEffect s c fd answer stage s' next)
    (hfails : stage = .process → answer = .process .failed → (s.conn c).kind = .http →
      s.users fd ≠ some c)
    (hkeeps : stage = .init → (s.conn c).kind = .http → (s.conn c).closed = false) :
    s'.Registered := by
  have hsound := h.sound.stage hl he hkeeps
  cases he with
  | nothing => exact h
  | failed hk ha =>
    refine h.closeConn hl c ?_ (fun hk' => by rw [hk] at hk'; cases hk')
    intro fd' hu
    have hfd := (h.sound.users fd' c hu).2.1.symm.trans hl.2.1
    rw [hfd] at hu
    exact hfails rfl ha hk hu
  | touches ht hepoll =>
    refine ⟨hsound, ?_⟩
    intro fd' c' hu hk
    rw [hepoll fd']
    rw [ht.eq] at hu hk ⊢
    exact h.http fd' c' hu hk
  | refreshTimer => exact ⟨hsound, h.http⟩
  | init => exact h.initConn hl (hkeeps rfl)
  | closeConnection => exact h.closeConnection c fd

theorem setTask (h : s.Registered) {t : Task} (ht : t ∈ s.tasks) (i : Nat) (next : Option Stage) :
    (s.setTask i t next).Registered := by
  have hsound := h.sound.setTask ht i next
  cases next with
  | none => exact ⟨hsound, h.http⟩
  | some stage => exact ⟨hsound, h.http⟩

theorem handle (h : s.Registered) {answer : Answer} (he : EventEffect s answer s') :
    s'.Registered := by
  have hsound := h.sound.handle he
  cases he with
  | quiet => exact ⟨hsound, h.http⟩
  | accept hfree => exact h.handleNewConnection _ hfree
  | addTask => exact ⟨hsound, h.http⟩
  | closeConnection => exact h.closeConnection _ _

/-- Every tidy step keeps the `HttpConn`s in `m_users` open and registered. -/
theorem step (h : s.Registered) {model : ActorModel} {action : Action} (ht : s.Tidy action)
    (hr : step model s action = some s') : s'.Registered := by
  have hsound := h.sound.step ht.2 hr
  cases action with
  | epollWait events =>
    simp only [NetServer.step] at hr
    split at hr
    · cases hr
      refine ⟨hsound, ?_⟩
      intro fd c hu hk
      obtain ⟨hopen, hreg⟩ := h.http fd c hu hk
      refine ⟨hopen, ?_⟩
      show ((s.disarm (events.filterMap Event.fd)).epoll fd).isSome = true
      rw [disarm_epoll, hreg]
    · cases hr
  | expire fd =>
    simp only [NetServer.step] at hr
    split at hr
    · cases hr
    · rename_i a _
      split at hr
      · cases hr
        exact ⟨hsound, (h.closeConnection a fd).http⟩
      · cases hr
  | handle answer =>
    simp only [NetServer.step] at hr
    split at hr
    · cases hr
    · rename_i e events _
      have h' : ({ s with events := events, ticking := false } : NetServer).Registered :=
        ⟨⟨⟨h.sound.users, h.sound.usersOpen, h.sound.tasks⟩, h.sound.conns, h.sound.owner,
          h.sound.epoll⟩, h.http⟩
      exact h'.handle (handleEvent_effect hr)
  | work i answer =>
    obtain ⟨t, s₁, next, htask, hl, he, hmem, rfl⟩ := work_cases h.sound hr
    refine (h.stage hl he ?_ (ht.2 t htask)).setTask hmem i next
    rintro hstage rfl hk
    exact ht.1 t htask hstage rfl hk
  | destroy c =>
    simp only [NetServer.step] at hr
    split at hr
    · rename_i hc
      cases hr
      exact h.destroy ⟨hc.1, rfl, hc.2.1⟩ (unreferenced_of_isReferenced h.sound hc.2.2)
    · cases hr
  | shutdownConn fd =>
    simp only [NetServer.step] at hr
    split at hr
    · cases hr
    · rename_i c hu
      split at hr
      · cases hr
      · cases hr
        exact h.shutdownConn hu c

end Registered

/-- **Consistency of `m_users`**: in every tidy run an `HttpConn` in `m_users` is open, has the number
    of its entry and is registered; so a closed one is neither in `m_users` nor registered. -/
theorem run_keeps_users {model : ActorModel} {actions : List Action} {s : NetServer}
    (ht : Transition.Meets (step model) Tidy start actions)
    (hr : Transition.run (step model) start actions = some s) :
    (∀ fd c, s.users fd = some c → (s.conn c).kind = .http →
      (s.conn c).closed = false ∧ (s.conn c).sockfd = some fd ∧ (s.epoll fd).isSome = true) ∧
    ∀ c < s.next, (s.conn c).kind = .http → (s.conn c).closed = true →
      ∀ fd, s.users fd ≠ some c ∧ ((s.epoll fd).isSome = true → s.owner fd ≠ some c) := by
  have h : s.Registered :=
    Transition.run_invariant (fun s a s' h ht hr => h.step ht hr) registered_start ht hr
  constructor
  · intro fd c hu hk
    obtain ⟨hopen, hreg⟩ := h.http fd c hu hk
    have hsock := (h.sound.sockfd_of_users hu (by rw [BaseConn.isClosed_http hk, hopen])).2.1
    exact ⟨hopen, hsock, hreg⟩
  · intro c hc hk hclosed fd
    constructor
    · intro hu
      rw [(h.http fd c hu hk).1] at hclosed
      cases hclosed
    · intro _ ho
      have hs := ((h.sound.owner fd c).mp ho).2
      have hopen := ((h.sound.conns c hc).http hk).mpr
        (by rw [hs, (h.sound.conns c hc).sockfd fd hs])
      rw [hopen] at hclosed
      cases hclosed

/-- A request is answered, another one of the same connection is read, and its timer expires. -/
def answerAndExpire : List Action :=
  [.epollWait [.connection .http], .handle (.accept (some 5)), .epollWait [.input 5],
    .handle (.read true), .work 0 (.process .done), .work 0 .none, .work 0 .none,
    .epollWait [.output 5], .handle .none, .work 0 (.write .ok true), .work 0 .none, .work 0 .none,
    .work 0 .none, .epollWait [.connection .webSocket], .handle (.accept (some 6)),
    .epollWait [], .expire 5]

theorem run_keeps_users_expired :
    ∃ s, Transition.run (step .Proactor) start answerAndExpire = some s ∧
      ((∀ fd c, s.users fd = some c → (s.conn c).kind = .http →
        (s.conn c).closed = false ∧ (s.conn c).sockfd = some fd ∧ (s.epoll fd).isSome = true) ∧
      ∀ c < s.next, (s.conn c).kind = .http → (s.conn c).closed = true →
        ∀ fd, s.users fd ≠ some c ∧ ((s.epoll fd).isSome = true → s.owner fd ≠ some c)) :=
  ⟨_, rfl, run_keeps_users (by decide : Transition.Meets (step .Proactor) Tidy start
    answerAndExpire) rfl⟩

/-! ## A response that cannot be built -/

/-- A request is read for which no response can be built, and its task runs to its end. -/
def failedResponse : List Action :=
  [.epollWait [.connection .http], .handle (.accept (some 5)), .epollWait [.input 5],
    .handle (.read true), .work 0 (.process .failed), .work 0 .none, .work 0 .none]

/-- The closed connection stays in `m_users`, with no task left that could remove it. -/
theorem failedResponse_stays :
    ∃ s, Transition.run (step .Proactor) start failedResponse = some s ∧ s.tasks = [] ∧
      s.users 5 = some 0 ∧ (s.conn 0).kind = .http ∧ (s.conn 0).closed = true ∧
      (s.conn 0).sockfd = none ∧ s.epoll 5 = none :=
  ⟨_, rfl, by decide⟩

end NetServer

end ModularNetServer
