import ModularNetServer.Net.Proofs.NetServerProofs

/-!
# Whose descriptor a call acts on

A task holds its connection's number by value, and `accept` may hand that number out again while the
task is still running. In a run in which that does not happen, and in which no closed connection is
initialised again, every call acts on the descriptor of the connection it is made for, and every
descriptor is closed once.
-/

namespace ModularNetServer

namespace NetServer

variable {s s' : NetServer} {a c : ConnId} {fd : Nat} {x : BaseConn}

/-- A number is accepted only when no task still holds it, unless all that is left of the task is to
    find its connection closed; and a closed connection is not initialised again. -/
def Orderly (s : NetServer) (action : Action) : Prop :=
  (∀ fd ∈ action.accepts, ∀ t ∈ s.tasks, t.fd = fd → t.stage.checksOpen = true) ∧
    ∀ t ∈ s.worked action, t.stage = .init → (s.conn t.conn).closed = false

instance (s : NetServer) (action : Action) : Decidable (s.Orderly action) :=
  inferInstanceAs (Decidable (_ ∧ _))

/-- The number of a task or a timer is not the descriptor of another connection, unless the task is
    going to find its connection closed. -/
structure Numbers (s : NetServer) : Prop where
  tasks : ∀ t ∈ s.tasks, ∀ c, s.owner t.fd = some c →
    c = t.conn ∨ t.stage.checksOpen = true ∧ (s.conn t.conn).isClosed = true
  timers : ∀ fd a c, s.timers fd = some a → s.owner fd = some c → c = a

/-- The calls acted on the connections they were made for, and a descriptor has been closed if its
    object has no socket any more, as it has not once it is destroyed. -/
structure Logged (s : NetServer) : Prop where
  own : ∀ b ∈ s.log, b.Own
  closes : ∀ c, s.closes c = if c < s.next ∧ (s.conn c).sockfd = none then 1 else 0
  destroyed : ∀ c < s.next, (s.conn c).destroyed = true → (s.conn c).sockfd = none

/-- An open `WebSocketConn` is in `m_users`. -/
def Entered (s : NetServer) : Prop :=
  ∀ c < s.next, (s.conn c).kind = .webSocket → (s.conn c).destroyed = false →
    (s.conn c).closed = false → s.users (s.conn c).accepted = some c

/-! ## Closing a connection -/

theorem closes_cons (s : NetServer) (b : Act) (c : ConnId) :
    ({ s with log := b :: s.log } : NetServer).closes c =
      s.closes c + if b.kind = .close ∧ b.owner = some c then 1 else 0 := by
  simp [closes, List.countP_cons]

theorem isClosed_mono {x y : BaseConn} (hk : y.kind = x.kind) (hc : y.closed = true)
    (hx : x.isClosed = true) : y.isClosed = true := by
  unfold BaseConn.isClosed at hx ⊢
  rw [hk]
  split at hx
  · exact hc
  · exact hx

namespace Numbers

theorem touches (h : s.Numbers) (ht : Touches s a fd s') : s'.Numbers := by
  rw [ht.eq]
  exact ⟨h.tasks, h.timers⟩

theorem setConn (h : s.Numbers) (hk : x.kind = (s.conn c).kind) (hc : x.closed = true) :
    (s.setConn c x).Numbers := by
  refine ⟨?_, h.timers⟩
  intro t ht d ho
  apply (h.tasks t ht d ho).imp_right
  rintro ⟨hstage, hclosed⟩
  refine ⟨hstage, ?_⟩
  by_cases htc : t.conn = c
  · rw [htc, setConn_conn_self]
    rw [htc] at hclosed
    exact isClosed_mono hk hc hclosed
  · rw [setConn_conn_of_ne s htc]
    exact hclosed

theorem closeFd (h : s.Numbers) (a : ConnId) (fd : Nat) : (s.closeFd a fd).Numbers := by
  constructor
  · intro t ht d ho
    exact h.tasks t ht d (Table.of_erase_eq_some ho).2
  · intro fd' b d hb ho
    exact h.timers fd' b d hb (Table.of_erase_eq_some ho).2

end Numbers

namespace Logged

theorem record (h : s.Logged) (kind : ActKind) (hkind : kind ≠ .close) (hown : s.owner fd = some a) :
    (s.record kind a fd).Logged := by
  refine ⟨?_, ?_, h.destroyed⟩
  · intro b hb
    rcases List.mem_cons.mp hb with rfl | hb
    · exact hown
    · exact h.own b hb
  · intro c
    rw [NetServer.record, closes_cons, if_neg (fun hc => hkind hc.1), Nat.add_zero]
    exact h.closes c

theorem touches (h : s.Logged) (ht : Touches s a fd s')
    (hown : (s.epoll fd).isSome = true → s.owner fd = some a) : s'.Logged := by
  rw [ht.eq]
  rcases ht.log with hlog | ⟨hreg, kind, hkind, hlog⟩
  · rw [hlog]
    exact ⟨h.own, h.closes, h.destroyed⟩
  · rw [hlog]
    have hrec := h.record kind hkind (hown hreg)
    exact ⟨hrec.own, hrec.closes, hrec.destroyed⟩

theorem setConn (h : s.Logged) (hsock : x.sockfd = (s.conn c).sockfd)
    (hdead : x.destroyed = true → (s.conn c).sockfd = none) : (s.setConn c x).Logged := by
  refine ⟨h.own, ?_, ?_⟩
  · intro c'
    show s.closes c' = if c' < s.next ∧ ((s.setConn c x).conn c').sockfd = none then 1 else 0
    rw [h.closes c']
    by_cases hcc : c' = c
    · rw [hcc, setConn_conn_self, hsock]
    · rw [setConn_conn_of_ne s hcc]
  · intro c' hc' hd
    by_cases hcc : c' = c
    · subst hcc
      rw [setConn_conn_self] at hd ⊢
      rw [hsock]
      exact hdead hd
    · rw [setConn_conn_of_ne s hcc] at hd ⊢
      exact h.destroyed c' hc' hd

/-- The descriptor of a connection is closed on its behalf, for the first time. -/
theorem setConn_closeFd (h : s.Logged) (hs : s.Sound) (ho : s.owner fd = some c)
    (hsock : x.sockfd = none) : ((s.setConn c x).closeFd c fd).Logged := by
  obtain ⟨hmade, hopen⟩ := (hs.owner fd c).mp ho
  have hself : ((s.setConn c x).closeFd c fd).conn c = x := setConn_conn_self s c x
  have hne : ∀ c', c' ≠ c → ((s.setConn c x).closeFd c fd).conn c' = s.conn c' :=
    fun c' hcc => setConn_conn_of_ne s hcc x
  refine ⟨?_, ?_, ?_⟩
  · intro b hb
    rcases List.mem_cons.mp hb with rfl | hb
    · exact ho
    · exact h.own b hb
  · intro c'
    have hcount : ((s.setConn c x).closeFd c fd).closes c' =
        s.closes c' + if some c = some c' then 1 else 0 := by
      have hcons := closes_cons s ⟨.close, c, s.owner fd⟩ c'
      rw [ho] at hcons
      simp only [true_and] at hcons
      rw [← hcons, ← ho]
      rfl
    rw [hcount, h.closes c']
    by_cases hcc : c' = c
    · subst hcc
      rw [hself, hsock, hopen]
      simp only [reduceCtorEq, and_false, if_false, if_true, and_true]
      exact (if_pos hmade).symm
    · rw [hne c' hcc, if_neg (fun heq => hcc (Option.some.inj heq).symm)]
      rfl
  · intro c' hc' hd
    by_cases hcc : c' = c
    · rw [hcc, hself]
      exact hsock
    · rw [hne c' hcc] at hd ⊢
      exact h.destroyed c' hc' hd

end Logged

/-- An open `WebSocketConn` stays in `m_users` when another object is closed or destroyed. -/
theorem Entered.update (h : s.Entered) (c : ConnId)
    (hc : (s'.conn c).closed = true ∨ (s'.conn c).destroyed = true)
    (hne : ∀ c', c' ≠ c → s'.conn c' = s.conn c')
    (husers : ∀ fd, s.users fd = some c ∨ s'.users fd = s.users fd) (hnext : s'.next = s.next) :
    s'.Entered := by
  intro c' hc' hk hd hopen
  have hcc : c' ≠ c := by
    rintro rfl
    rcases hc with hc | hc
    · rw [hopen] at hc
      cases hc
    · rw [hd] at hc
      cases hc
  rw [hne c' hcc] at hk hd hopen ⊢
  rw [hnext] at hc'
  have hu := h c' hc' hk hd hopen
  rcases husers (s.conn c').accepted with hu' | hu'
  · rw [hu] at hu'
    exact absurd (Option.some.inj hu') hcc
  · rw [hu', hu]

theorem eraseUser_or (hu : s.users fd = some c) (fd' : Nat) :
    s.users fd' = some c ∨ s.users.erase fd fd' = s.users fd' := by
  by_cases hfd : fd' = fd
  · exact .inl (by rw [hfd, hu])
  · exact .inr (Table.erase_of_ne _ hfd)

theorem Numbers.closeConn (h : s.Numbers) (hs : s.Sound) (hl : s.Live c fd) (a : ConnId) :
    (s.closeConn a c).Numbers := by
  rcases closeConn_cases hs hl a with ⟨-, -, heq⟩ | ⟨-, -, heq⟩ | ⟨-, -, heq⟩
  · rw [heq]
    exact h
  · rw [heq]
    exact h.setConn rfl rfl
  · rw [heq]
    apply Numbers.closeFd
    exact h.setConn rfl rfl

theorem Logged.closeConn (h : s.Logged) (hs : s.Sound) (hl : s.Live c fd) :
    (s.closeConn c c).Logged := by
  rcases closeConn_cases hs hl c with ⟨-, -, heq⟩ | ⟨-, -, heq⟩ | ⟨-, ho, heq⟩
  · rw [heq]
    exact h
  · rw [heq]
    refine h.setConn rfl ?_
    intro hd
    rw [hl.2.2] at hd
    cases hd
  · rw [heq]
    exact h.setConn_closeFd hs ho rfl

/-! ## Ownership -/

/-- What every orderly step keeps. -/
structure Owned (s : NetServer) : Prop where
  sound : s.Sound
  numbers : s.Numbers
  logged : s.Logged
  entered : s.Entered

theorem owned_start : Owned start where
  sound := sound_start
  numbers := ⟨by simp [start], by simp [start]⟩
  logged := ⟨by simp [start], by simp [start, closes], by simp [start]⟩
  entered := fun c hc => absurd hc (by simp [start])

namespace Owned

theorem touches (h : s.Owned) (ht : Touches s a fd s')
    (hown : ∀ d, s.owner fd = some d → d = a) : s'.Owned := by
  refine ⟨h.sound.touches ht, h.numbers.touches ht, h.logged.touches ht ?_, ?_⟩
  · intro hreg
    obtain ⟨d, hd⟩ := Option.isSome_iff_exists.mp (h.sound.epoll fd hreg)
    rw [hd, hown d hd]
  · rw [ht.eq]
    exact h.entered

theorem refreshTimer (h : s.Owned) (hown : ∀ d, s.owner fd = some d → d = a) :
    (s.refreshTimer a fd).Owned := by
  refine ⟨h.sound.refreshTimer a fd, ⟨h.numbers.tasks, ?_⟩,
    ⟨h.logged.own, h.logged.closes, h.logged.destroyed⟩, h.entered⟩
  intro fd' b d hb ho
  change s.timers.insert fd a fd' = some b at hb
  by_cases hfd : fd' = fd
  · subst hfd
    rw [Table.insert_self] at hb
    cases hb
    exact hown d ho
  · rw [Table.insert_of_ne _ hfd] at hb
    exact h.numbers.timers fd' b d hb ho

theorem closeConnection (h : s.Owned) (hown : ∀ d, s.owner fd = some d → d = a) :
    (s.closeConnection a fd).Owned := by
  have hsound := h.sound.closeConnection a fd
  rcases closeConnection_cases s a fd with heq | ⟨c, hu, hopen, heq⟩
  · rw [heq]
    exact h
  · obtain ⟨-, -, ho⟩ := h.sound.sockfd_of_users hu hopen
    obtain rfl := hown c ho
    have hl := h.sound.users fd c hu
    have htouch := removeFd_touches (s.dropUser c fd) c fd
    have hrec := h.logged.record .erase (by decide) ho
    have hdrop : (s.dropUser c fd).Logged := ⟨hrec.own, hrec.closes, hrec.destroyed⟩
    have hs₂ := (h.sound.eraseUser fd (⟨.erase, c, s.owner fd⟩ :: s.log)).touches htouch
    have hnum : (s.dropUser c fd).Numbers := ⟨h.numbers.tasks, h.numbers.timers⟩
    have hn₂ := hnum.touches htouch
    have hl₂ := hdrop.touches htouch (fun _ => ho)
    have hlive : ((s.dropUser c fd).removeFd c fd).Live c fd := by
      rw [htouch.eq]
      exact hl
    rw [heq] at hsound ⊢
    refine ⟨hsound, hn₂.closeConn hs₂ hlive c, hl₂.closeConn hs₂ hlive, ?_⟩
    refine h.entered.update c (.inl (closeConn_closed _ c c)) ?_ ?_ ?_
    · intro c' hcc
      rw [closeConn_conn_of_ne _ c hcc, htouch.eq]
      rfl
    · intro fd'
      rw [closeConn_users, htouch.eq]
      exact eraseUser_or hu fd'
    · rw [closeConn_next, htouch.eq]
      rfl

theorem closeConn (h : s.Owned) (hl : s.Live c fd) (hk : (s.conn c).kind = .http) :
    (s.closeConn c c).Owned := by
  refine ⟨h.sound.closeConn hl c (fun hk' => by rw [hk] at hk'; cases hk'),
    h.numbers.closeConn h.sound hl c, h.logged.closeConn h.sound hl, ?_⟩
  refine h.entered.update c (.inl (closeConn_closed s c c)) ?_ ?_ (closeConn_next s c c)
  · exact fun c' hcc => closeConn_conn_of_ne s c hcc
  · exact fun fd' => .inr (by rw [closeConn_users])

theorem shutdownConn (h : s.Owned) (hu : s.users fd = some c) :
    ({ s.closeConn c c with users := (s.closeConn c c).users.erase fd } : NetServer).Owned := by
  have hl := h.sound.users fd c hu
  have hn := h.numbers.closeConn h.sound hl c
  have hlog := h.logged.closeConn h.sound hl
  refine ⟨h.sound.shutdownConn hu c, ⟨hn.tasks, hn.timers⟩,
    ⟨hlog.own, hlog.closes, hlog.destroyed⟩, ?_⟩
  refine h.entered.update c (.inl (closeConn_closed s c c)) ?_ ?_ (closeConn_next s c c)
  · exact fun c' hcc => closeConn_conn_of_ne s c hcc
  · intro fd'
    show s.users fd' = some c ∨ (s.closeConn c c).users.erase fd fd' = s.users fd'
    rw [closeConn_users]
    exact eraseUser_or hu fd'

theorem destroy (h : s.Owned) (hl : s.Live c fd) (hr : s.Unreferenced c) : (s.destroy c).Owned := by
  have hsound := h.sound.destroy hl hr
  rcases destroy_cases h.sound hl with ⟨hk, hc, heq⟩ | ⟨hk, hc, -⟩ | ⟨ho, heq⟩
  · have hnone : (s.conn c).sockfd = none := by
      have hx := h.sound.conns c hl.1
      cases hs : (s.conn c).sockfd with
      | none => rfl
      | some fd' =>
        have hopen := (hx.http hk).mpr (by rw [hs, hx.sockfd fd' hs])
        rw [hc] at hopen
        cases hopen
    rw [heq] at hsound ⊢
    refine ⟨hsound, h.numbers.setConn rfl hc, h.logged.setConn rfl (fun _ => hnone), ?_⟩
    refine h.entered.update c (.inl ?_) ?_ (fun fd' => .inr rfl) rfl
    · rw [setConn_conn_self]
      exact hc
    · exact fun c' hcc => setConn_conn_of_ne s hcc _
  · -- an open `WebSocketConn` is still in `m_users`
    exact absurd (h.entered c hl.1 hk hl.2.2 hc) (hr.1 _)
  · rw [heq] at hsound ⊢
    refine ⟨hsound, ?_, h.logged.setConn_closeFd h.sound ho rfl, ?_⟩
    · apply Numbers.closeFd
      exact h.numbers.setConn rfl rfl
    refine h.entered.update c (.inl ?_) ?_ (fun fd' => .inr rfl) rfl
    · show ((s.setConn c _).conn c).closed = true
      rw [setConn_conn_self]
    · exact fun c' hcc => setConn_conn_of_ne s hcc _

/-- A live object whose number is nobody's has been closed. -/
theorem isClosed_of_free (h : s.Sound) (hl : s.Live c fd) (hfree : s.owner fd = none) :
    (s.conn c).isClosed = true := by
  have hx := h.conns c hl.1
  have hnone : (s.conn c).sockfd ≠ some (s.conn c).accepted := by
    intro hs
    rw [hl.2.1] at hs
    rw [(h.owner fd c).mpr ⟨hl.1, hs⟩] at hfree
    cases hfree
  cases hk : (s.conn c).kind with
  | http =>
    rw [BaseConn.isClosed_http hk]
    by_contra hc
    exact hnone ((hx.http hk).mp (by simpa using hc))
  | webSocket => exact absurd (hx.webSocket hk hl.2.2) hnone

theorem handleNewConnection (h : s.Owned) (kind : ConnKind) (hfree : s.owner fd = none)
    (htasks : ∀ t ∈ s.tasks, t.fd = fd → t.stage.checksOpen = true) :
    (s.handleNewConnection kind fd).Owned := by
  have hself := handleNewConnection_conn_self s kind fd
  have hne : ∀ c < s.next, (s.handleNewConnection kind fd).conn c = s.conn c :=
    fun c hc => handleNewConnection_conn_of_ne s kind fd (Nat.ne_of_lt hc)
  refine ⟨h.sound.handleNewConnection kind hfree, ⟨?_, ?_⟩, ⟨h.logged.own, ?_, ?_⟩, ?_⟩
  · intro t ht d ho
    have hl := h.sound.tasks t ht
    change s.owner.insert fd s.next t.fd = some d at ho
    rw [hne t.conn hl.1]
    by_cases hfd : t.fd = fd
    · refine .inr ⟨htasks t ht hfd, isClosed_of_free h.sound hl ?_⟩
      rw [hfd, hfree]
    · rw [Table.insert_of_ne _ hfd] at ho
      exact h.numbers.tasks t ht d ho
  · intro fd' b d hb ho
    change s.timers.insert fd s.next fd' = some b at hb
    change s.owner.insert fd s.next fd' = some d at ho
    by_cases hfd : fd' = fd
    · rw [hfd, Table.insert_self] at hb ho
      rw [← Option.some.inj hb, ← Option.some.inj ho]
    · rw [Table.insert_of_ne _ hfd] at hb ho
      exact h.numbers.timers fd' b d hb ho
  · intro c
    show s.closes c = if c < s.next + 1 ∧ ((s.handleNewConnection kind fd).conn c).sockfd = none
      then 1 else 0
    rw [h.logged.closes c]
    by_cases hcn : c = s.next
    · subst hcn
      rw [hself, BaseConn.init_sockfd]
      simp
    · rw [handleNewConnection_conn_of_ne s kind fd hcn]
      have hiff : c < s.next ↔ c < s.next + 1 := by
        refine ⟨Nat.lt_succ_of_lt, fun hlt => Nat.lt_of_le_of_ne (Nat.le_of_lt_succ hlt) hcn⟩
      simp only [hiff]
  · intro c hc hd
    by_cases hcn : c = s.next
    · subst hcn
      rw [hself, BaseConn.init_destroyed] at hd
      cases hd
    · have hlt := Nat.lt_of_le_of_ne (Nat.le_of_lt_succ hc) hcn
      rw [hne c hlt] at hd ⊢
      exact h.logged.destroyed c hlt hd
  · intro c hc hk hd hopen
    show s.users.insert fd s.next ((s.handleNewConnection kind fd).conn c).accepted = some c
    by_cases hcn : c = s.next
    · subst hcn
      rw [hself, BaseConn.init_accepted]
      exact Table.insert_self _ _ _
    · have hlt := Nat.lt_of_le_of_ne (Nat.le_of_lt_succ hc) hcn
      rw [hne c hlt] at hk hd hopen ⊢
      rw [Table.insert_of_ne]
      · exact h.entered c hlt hk hd hopen
      · intro hacc
        have hclosed := isClosed_of_free h.sound ⟨hlt, hacc, hd⟩ hfree
        rw [BaseConn.isClosed_webSocket hk] at hclosed
        cases hclosed

end Owned

/-! ## Steps -/

theorem closeConn_owner (s : NetServer) (a c : ConnId) {d : ConnId}
    (h : (s.closeConn a c).owner fd = some d) : s.owner fd = some d := by
  unfold closeConn at h
  split at h
  · exact h
  · rename_i fd' x _
    change s.owner.erase fd' fd = some d at h
    exact (Table.of_erase_eq_some h).2

theorem closeConnection_owner (s : NetServer) (a : ConnId) (fd' : Nat) {d : ConnId}
    (h : (s.closeConnection a fd').owner fd = some d) : s.owner fd = some d := by
  rcases closeConnection_cases s a fd' with heq | ⟨c, -, -, heq⟩
  · rwa [heq] at h
  · rw [heq] at h
    have ho := closeConn_owner _ a c h
    rwa [(removeFd_touches (s.dropUser a fd') a fd').eq] at ho

/-- A step of a task makes no number somebody's descriptor. -/
theorem StageEffect.owner {answer : Answer} {stage : Stage} {next : Option Stage} {d : ConnId}
    (he : StageEffect s c fd answer stage s' next) (h : s'.owner fd = some d) :
    s.owner fd = some d := by
  cases he with
  | nothing => exact h
  | failed => exact closeConn_owner s c c h
  | touches ht =>
    rw [ht.eq] at h
    exact h
  | refreshTimer => exact h
  | init => exact h
  | closeConnection => exact closeConnection_owner s c fd h

/-- The number of a task is its connection's or nobody's, or the step does nothing. -/
theorem StageEffect.own {answer : Answer} {stage : Stage} {next : Option Stage}
    (he : StageEffect s c fd answer stage s' next)
    (hnum : ∀ d, s.owner fd = some d →
      d = c ∨ stage.checksOpen = true ∧ (s.conn c).isClosed = true) :
    (∀ d, s.owner fd = some d → d = c) ∨
      s' = s ∧ (s.conn c).isClosed = true ∧ ∀ n ∈ next, n.checksOpen = true := by
  have hact : stage.checksOpen = false ∨ (s.conn c).isClosed = false →
      ∀ d, s.owner fd = some d → d = c := by
    intro hopen d hd
    rcases hnum d hd with hdc | ⟨hstage, hclosed⟩
    · exact hdc
    · rcases hopen with hopen | hopen
      · rw [hopen] at hstage
        cases hstage
      · rw [hopen] at hclosed
        cases hclosed
  cases he with
  | nothing hnext =>
    rcases hnext with hstage | hnext
    · exact .inl (hact (.inl hstage))
    · by_cases hclosed : (s.conn c).isClosed = true
      · exact .inr ⟨rfl, hclosed, hnext⟩
      · exact .inl (hact (.inr (by simpa using hclosed)))
  | failed => exact .inl (hact (.inl rfl))
  | touches _ _ hopen => exact .inl (hact hopen)
  | refreshTimer hopen => exact .inl (hact hopen)
  | init => exact .inl (hact (.inl rfl))
  | closeConnection => exact .inl (hact (.inl rfl))

namespace Owned

theorem stage (h : s.Owned) (hl : s.Live c fd) {answer : Answer} {stage : Stage}
    {next : Option Stage} (he : StageEffect s c fd answer stage s' next)
    (hown : ∀ d, s.owner fd = some d → d = c) (hkeeps : stage = .init → (s.conn c).closed = false) :
    s'.Owned := by
  cases he with
  | nothing => exact h
  | failed hk => exact h.closeConn hl hk
  | touches ht => exact h.touches ht hown
  | refreshTimer => exact h.refreshTimer hown
  | init =>
    rw [h.sound.initConn_eq_self hl (hkeeps rfl)]
    exact h
  | closeConnection => exact h.closeConnection hown

theorem setTask (h : s.Owned) {t : Task} (ht : t ∈ s.tasks) (i : Nat) {next : Option Stage}
    (hnext : ∀ n ∈ next, ∀ d, s.owner t.fd = some d →
      d = t.conn ∨ n.checksOpen = true ∧ (s.conn t.conn).isClosed = true) :
    (s.setTask i t next).Owned := by
  have hsound := h.sound.setTask ht i next
  have hmem : ∀ t' ∈ (s.setTask i t next).tasks, ∀ d, s.owner t'.fd = some d →
      d = t'.conn ∨ t'.stage.checksOpen = true ∧ (s.conn t'.conn).isClosed = true := by
    intro t' ht' d hd
    rcases mem_setTask ht' with ht' | ⟨n, hn, rfl⟩
    · exact h.numbers.tasks t' ht' d hd
    · exact hnext n hn d hd
  cases next with
  | none =>
    exact ⟨hsound, ⟨hmem, h.numbers.timers⟩,
      ⟨h.logged.own, h.logged.closes, h.logged.destroyed⟩, h.entered⟩
  | some n =>
    exact ⟨hsound, ⟨hmem, h.numbers.timers⟩,
      ⟨h.logged.own, h.logged.closes, h.logged.destroyed⟩, h.entered⟩

theorem work (h : s.Owned) {i : Nat} {answer : Answer} (ho : s.Orderly (.work i answer))
    (hr : s.work i answer = some s') : s'.Owned := by
  obtain ⟨t, s₁, next, ht, hl, he, hmem, rfl⟩ := work_cases h.sound hr
  have hnum := h.numbers.tasks t (List.mem_of_getElem? ht)
  rcases he.own hnum with hown | ⟨rfl, hclosed, hnext⟩
  · apply (h.stage hl he hown (ho.2 t ht)).setTask hmem
    intro n _ d hd
    exact .inl (hown d (he.owner hd))
  · apply h.setTask hmem
    intro n hn d _
    exact .inr ⟨hnext n hn, hclosed⟩

theorem handle (h : s.Owned) {answer : Answer} (he : EventEffect s answer s')
    (ho : ∀ fd ∈ (Action.handle answer).accepts, ∀ t ∈ s.tasks, t.fd = fd → t.stage.checksOpen = true) :
    s'.Owned := by
  have hsound := h.sound.handle he
  cases he with
  | quiet =>
    exact ⟨hsound, ⟨h.numbers.tasks, h.numbers.timers⟩,
      ⟨h.logged.own, h.logged.closes, h.logged.destroyed⟩, h.entered⟩
  | accept hfree => exact h.handleNewConnection _ hfree (ho _ rfl)
  | addTask hu hopen =>
    obtain ⟨-, -, hown⟩ := h.sound.sockfd_of_users hu hopen
    refine ⟨hsound, ⟨?_, h.numbers.timers⟩,
      ⟨h.logged.own, h.logged.closes, h.logged.destroyed⟩, h.entered⟩
    intro t ht d hd
    rcases List.mem_append.mp ht with ht | ht
    · exact h.numbers.tasks t ht d hd
    · rw [List.mem_singleton.mp ht] at hd ⊢
      exact .inl (Option.some.inj (hown.symm.trans hd)).symm
  | closeConnection hu hopen =>
    obtain ⟨-, -, hown⟩ := h.sound.sockfd_of_users hu hopen
    apply h.closeConnection
    intro d hd
    rw [hown] at hd
    exact (Option.some.inj hd).symm

/-- Every orderly step keeps the descriptors with their connections. -/
theorem step (h : s.Owned) {model : ActorModel} {action : Action} (ho : s.Orderly action)
    (hr : step model s action = some s') : s'.Owned := by
  have hsound := h.sound.step (fun t ht hi _ => ho.2 t ht hi) hr
  cases action with
  | epollWait events =>
    simp only [NetServer.step] at hr
    split at hr
    · cases hr
      exact ⟨hsound, ⟨h.numbers.tasks, h.numbers.timers⟩,
        ⟨h.logged.own, h.logged.closes, h.logged.destroyed⟩, h.entered⟩
    · cases hr
  | expire fd =>
    simp only [NetServer.step] at hr
    split at hr
    · cases hr
    · rename_i a ha
      split at hr
      · cases hr
        have hc := h.closeConnection (h.numbers.timers fd a · ha)
        refine ⟨hsound, ⟨hc.numbers.tasks, ?_⟩,
          ⟨hc.logged.own, hc.logged.closes, hc.logged.destroyed⟩, hc.entered⟩
        intro fd' b d hb hd
        change (s.closeConnection a fd).timers.erase fd fd' = some b at hb
        exact hc.numbers.timers fd' b d (Table.of_erase_eq_some hb).2 hd
      · cases hr
  | handle answer =>
    simp only [NetServer.step] at hr
    split at hr
    · cases hr
    · rename_i e events _
      have h' : ({ s with events := events, ticking := false } : NetServer).Owned :=
        ⟨⟨⟨h.sound.users, h.sound.usersOpen, h.sound.tasks⟩, h.sound.conns, h.sound.owner, h.sound.epoll⟩,
          ⟨h.numbers.tasks, h.numbers.timers⟩,
          ⟨h.logged.own, h.logged.closes, h.logged.destroyed⟩, h.entered⟩
      exact h'.handle (handleEvent_effect hr) ho.1
  | work i answer => exact h.work ho hr
  | destroy c =>
    simp only [NetServer.step] at hr
    split at hr
    · rename_i hc
      cases hr
      exact h.destroy ⟨hc.1, rfl, hc.2.1⟩ (unreferenced_of_isReferenced h.sound hc.2.2)
    · cases hr
  | shutdownConn fd =>
    simp only [NetServer.step] at hr
    split at hr
    · cases hr
    · rename_i c hu
      split at hr
      · cases hr
      · cases hr
        exact h.shutdownConn hu

end Owned

/-- A request is answered and its connection closed and destroyed; the next connection is accepted with
    the same number. -/
def answerAndReuse : List Action :=
  [.epollWait [.connection .http], .handle (.accept (some 5)), .epollWait [.input 5],
    .handle (.read true), .work 0 (.process .done), .work 0 .none, .work 0 .none,
    .epollWait [.output 5], .handle .none, .work 0 (.write .ok false), .work 0 .none, .destroy 0,
    .epollWait [.connection .http], .handle (.accept (some 5))]

/-- A timer expires between the `write` call that ends a response and the `init` call after it. -/
def lateInit : List Action :=
  [.epollWait [.connection .http], .handle (.accept (some 5)), .epollWait [.input 5],
    .handle (.read true), .work 0 (.process .done), .work 0 .none, .work 0 .none,
    .epollWait [.output 5], .handle .none, .work 0 (.write .ok true), .epollWait [], .expire 5,
    .work 0 .none, .work 0 .none, .work 0 .none, .destroy 0]

/-- The destructor closes the number once more. -/
example : ∃ s, Transition.run (step .Proactor) start lateInit = some s ∧
    (⟨.close, 0, none⟩ : Act) ∈ s.log :=
  ⟨_, rfl, by decide⟩

end NetServer

end ModularNetServer
