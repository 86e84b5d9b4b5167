import ModularNetServer.Net.NetServer
import ModularNetServer.Net.Proofs.BaseConnProofs

/-!
# What the server keeps up

`NetServer.Sound` relates the connection objects to the kernel's tables: a number is a connection's
descriptor exactly while the object has it as `m_sockfd`. Every step keeps it, unless it initialises a
closed `HttpConn` again.
-/

namespace ModularNetServer

namespace NetServer

variable {s s' : NetServer} {a c c' : ConnId} {fd fd' : Nat} {x : BaseConn}

/-! ## The single calls -/

theorem setConn_conn_self (s : NetServer) (c : ConnId) (x : BaseConn) : (s.setConn c x).conn c = x := by
  simp [setConn]

theorem setConn_conn_of_ne (s : NetServer) (h : c' ≠ c) (x : BaseConn) :
    (s.setConn c x).conn c' = s.conn c' := by
  simp [setConn, h]

theorem setConn_self (s : NetServer) (c : ConnId) : s.setConn c (s.conn c) = s := by
  have h : (fun c' => if c' = c then s.conn c else s.conn c') = s.conn := by
    funext c'
    by_cases hc : c' = c
    · rw [if_pos hc, hc]
    · rw [if_neg hc]
  simp only [setConn, h]

/-- A call that ends a registration or changes its interest. -/
structure Touches (s : NetServer) (a : ConnId) (fd : Nat) (s' : NetServer) : Prop where
  eq : s' = { s with epoll := s'.epoll, log := s'.log }
  epoll : ∀ fd', (s'.epoll fd').isSome = true → (s.epoll fd').isSome = true
  log : s'.log = s.log ∨ (s.epoll fd).isSome = true ∧
    ∃ kind, kind ≠ .close ∧ s'.log = ⟨kind, a, s.owner fd⟩ :: s.log

theorem modFd_touches (s : NetServer) (a : ConnId) (fd : Nat) (interest : Interest) :
    Touches s a fd (s.modFd a fd interest) := by
  unfold modFd
  split
  · rename_i h
    refine ⟨rfl, ?_, .inr ⟨h, .rearm, by decide, rfl⟩⟩
    intro fd' h'
    by_cases hfd : fd' = fd
    · rw [hfd]
      exact h
    · simpa [Table.insert_of_ne _ hfd] using h'
  · exact ⟨rfl, fun _ h => h, .inl rfl⟩

theorem modFd_epoll (s : NetServer) (a : ConnId) (fd fd' : Nat) (interest : Interest) :
    ((s.modFd a fd interest).epoll fd').isSome = (s.epoll fd').isSome := by
  unfold modFd
  split
  · rename_i h
    by_cases hfd : fd' = fd
    · subst hfd
      simp [h]
    · simp [Table.insert_of_ne _ hfd]
  · rfl

theorem removeFd_touches (s : NetServer) (a : ConnId) (fd : Nat) :
    Touches s a fd (s.removeFd a fd) := by
  unfold removeFd
  split
  · rename_i h
    refine ⟨rfl, ?_, .inr ⟨h, .remove, by decide, rfl⟩⟩
    intro fd' h'
    by_cases hfd : fd' = fd
    · rw [hfd]
      exact h
    · simpa [Table.erase_of_ne _ hfd] using h'
  · exact ⟨rfl, fun _ h => h, .inl rfl⟩

/-! ## Soundness -/

/-- An object that has not been destroyed, accepted as `fd`. -/
def Live (s : NetServer) (c : ConnId) (fd : Nat) : Prop :=
  c < s.next ∧ (s.conn c).accepted = fd ∧ (s.conn c).destroyed = false

/-- Nothing refers to an object. -/
def Unreferenced (s : NetServer) (c : ConnId) : Prop :=
  (∀ fd, s.users fd ≠ some c) ∧ ∀ t ∈ s.tasks, t.conn ≠ c

/-- What is referred to has not been destroyed, and `m_users` has no closed `WebSocketConn`. -/
structure Refs (s : NetServer) : Prop where
  users : ∀ fd c, s.users fd = some c → s.Live c fd
  usersOpen : ∀ fd c, s.users fd = some c → (s.conn c).kind = .webSocket → (s.conn c).closed = false
  tasks : ∀ t ∈ s.tasks, s.Live t.conn t.fd

/-- The objects are sound, a number is the descriptor of the object that has it as `m_sockfd`, and
    what is registered is somebody's. -/
structure Sound (s : NetServer) : Prop extends Refs s where
  conns : ∀ c < s.next, (s.conn c).Sound
  owner : ∀ fd c, s.owner fd = some c ↔ c < s.next ∧ (s.conn c).sockfd = some fd
  epoll : ∀ fd, (s.epoll fd).isSome = true → (s.owner fd).isSome = true

theorem sound_start : Sound start where
  conns := fun c hc => absurd hc (by simp [start])
  owner := by simp [start]
  users := by simp [start]
  usersOpen := by simp [start]
  tasks := by simp [start]
  epoll := by simp [start]

/-- How an object may change: it keeps its number, it is destroyed only when nothing refers to it, and
    a `WebSocketConn` is closed only when `m_users` does not have it. -/
structure Changes (s : NetServer) (c : ConnId) (x : BaseConn) : Prop where
  sound : x.Sound
  accepted : x.accepted = (s.conn c).accepted
  destroyed : x.destroyed = true → (s.conn c).destroyed = true ∨ s.Unreferenced c
  webSocket : x.kind = .webSocket → x.closed = true → ∀ fd, s.users fd ≠ some c

theorem Refs.setConn (h : s.Refs) (hx : s.Changes c x) : (s.setConn c x).Refs := by
  have hlive : ∀ c' fd, s.Live c' fd → (c' = c → ¬ s.Unreferenced c) →
      (s.setConn c x).Live c' fd := by
    intro c' fd hl href
    by_cases hcc : c' = c
    · subst hcc
      refine ⟨hl.1, ?_, ?_⟩
      · rw [setConn_conn_self, hx.accepted, hl.2.1]
      · rw [setConn_conn_self]
        by_contra hd
        rcases hx.destroyed (by simpa using hd) with hd | hu
        · rw [hl.2.2] at hd
          cases hd
        · exact href rfl hu
    · refine ⟨hl.1, ?_, ?_⟩
      · rw [setConn_conn_of_ne s hcc, hl.2.1]
      · rw [setConn_conn_of_ne s hcc, hl.2.2]
  refine ⟨?_, ?_, ?_⟩
  · intro fd c' hu
    apply hlive c' fd (h.users fd c' hu)
    rintro rfl href
    exact href.1 fd hu
  · intro fd c' hu
    by_cases hcc : c' = c
    · subst hcc
      rw [setConn_conn_self]
      intro hk
      by_contra hclosed
      exact hx.webSocket hk (by simpa using hclosed) fd hu
    · rw [setConn_conn_of_ne s hcc]
      exact h.usersOpen fd c' hu
  · intro t ht
    apply hlive t.conn t.fd (h.tasks t ht)
    intro hcc href
    exact href.2 t ht hcc

theorem conns_setConn (h : ∀ c < s.next, (s.conn c).Sound) (hx : x.Sound) :
    ∀ c' < s.next, ((s.setConn c x).conn c').Sound := by
  intro c' hc'
  by_cases hcc : c' = c
  · rw [hcc, setConn_conn_self]
    exact hx
  · rw [setConn_conn_of_ne s hcc]
    exact h c' hc'

namespace Sound

theorem owner_some (h : s.Sound) (ho : s.owner fd = some c) :
    c < s.next ∧ (s.conn c).accepted = fd := by
  obtain ⟨hc, hs⟩ := (h.owner fd c).mp ho
  exact ⟨hc, ((h.conns c hc).sockfd fd hs).symm⟩

/-- An entry of `m_users` that is not closed has the number of the entry. -/
theorem sockfd_of_users (h : s.Sound) (hu : s.users fd = some c) (hc : (s.conn c).isClosed = false) :
    (s.conn c).closed = false ∧ (s.conn c).sockfd = some fd ∧ s.owner fd = some c := by
  obtain ⟨hmade, hacc, hlive⟩ := h.users fd c hu
  have hsound := h.conns c hmade
  cases hk : (s.conn c).kind with
  | http =>
    rw [BaseConn.isClosed_http hk] at hc
    have hs := (hsound.http hk).mp hc
    rw [hacc] at hs
    exact ⟨hc, hs, (h.owner fd c).mpr ⟨hmade, hs⟩⟩
  | webSocket =>
    have hs := hsound.webSocket hk hlive
    rw [hacc] at hs
    exact ⟨h.usersOpen fd c hu hk, hs, (h.owner fd c).mpr ⟨hmade, hs⟩⟩

theorem touches (h : s.Sound) (ht : Touches s a fd s') : s'.Sound := by
  rw [ht.eq]
  exact ⟨⟨h.users, h.usersOpen, h.tasks⟩, h.conns, h.owner, fun fd' h' => h.epoll fd' (ht.epoll fd' h')⟩

theorem refreshTimer (h : s.Sound) (a : ConnId) (fd : Nat) : (s.refreshTimer a fd).Sound :=
  ⟨⟨h.users, h.usersOpen, h.tasks⟩, h.conns, h.owner, h.epoll⟩

theorem eraseUser (h : s.Sound) (fd : Nat) (log : List Act) :
    ({ s with users := s.users.erase fd, log := log } : NetServer).Sound := by
  refine ⟨⟨?_, ?_, h.tasks⟩, h.conns, h.owner, h.epoll⟩
  · intro fd' c hu
    exact h.users fd' c (Table.of_erase_eq_some hu).2
  · intro fd' c hu
    exact h.usersOpen fd' c (Table.of_erase_eq_some hu).2

theorem setTasks (h : s.Sound) {tasks : List Task} (ht : ∀ t ∈ tasks, s.Live t.conn t.fd) :
    ({ s with tasks := tasks } : NetServer).Sound :=
  ⟨⟨h.users, h.usersOpen, ht⟩, h.conns, h.owner, h.epoll⟩

/-- An object changes and keeps its socket. -/
theorem setConn (h : s.Sound) (hx : s.Changes c x) (hsock : x.sockfd = (s.conn c).sockfd) :
    (s.setConn c x).Sound := by
  refine ⟨h.toRefs.setConn hx, conns_setConn h.conns hx.sound, ?_, h.epoll⟩
  intro fd c'
  show s.owner fd = some c' ↔ c' < s.next ∧ ((s.setConn c x).conn c').sockfd = some fd
  by_cases hcc : c' = c
  · rw [hcc, setConn_conn_self, hsock]
    exact h.owner fd c
  · rw [setConn_conn_of_ne s hcc]
    exact h.owner fd c'

/-- An object gives up its socket, which is closed. -/
theorem setConn_closeFd (h : s.Sound) (hx : s.Changes c x) (hown : s.owner fd = some c)
    (hsock : x.sockfd = none) : ((s.setConn c x).closeFd a fd).Sound := by
  have hrefs := h.toRefs.setConn hx
  refine ⟨⟨hrefs.users, hrefs.usersOpen, hrefs.tasks⟩, conns_setConn h.conns hx.sound, ?_, ?_⟩
  · intro fd' c'
    show s.owner.erase fd fd' = some c' ↔ c' < s.next ∧ ((s.setConn c x).conn c').sockfd = some fd'
    by_cases hcc : c' = c
    · subst hcc
      rw [setConn_conn_self, hsock]
      refine iff_of_false ?_ (by simp)
      intro ho
      obtain ⟨hfd, ho⟩ := Table.of_erase_eq_some ho
      exact hfd ((h.owner_some ho).2.symm.trans (h.owner_some hown).2)
    · rw [setConn_conn_of_ne s hcc, ← h.owner fd' c']
      by_cases hfd : fd' = fd
      · subst hfd
        rw [Table.erase_self, hown]
        exact iff_of_false (by simp) (fun heq => hcc (Option.some.inj heq).symm)
      · rw [Table.erase_of_ne _ hfd]
  · intro fd' hreg
    show (s.owner.erase fd fd').isSome = true
    change (s.epoll.erase fd fd').isSome = true at hreg
    by_cases hfd : fd' = fd
    · simp [hfd] at hreg
    · rw [Table.erase_of_ne _ hfd] at hreg ⊢
      exact h.epoll fd' hreg

end Sound

/-! ## Closing -/

/-- What `closeConn` comes to for an object that has not been destroyed: nothing, a flag, or the end of
    its descriptor. -/
theorem closeConn_cases (h : s.Sound) (hl : s.Live c fd) (a : ConnId) :
    ((s.conn c).kind = .http ∧ (s.conn c).closed = true ∧ s.closeConn a c = s) ∨
    ((s.conn c).kind = .webSocket ∧ (s.conn c).closed = false ∧
      s.closeConn a c = s.setConn c { s.conn c with closed := true }) ∨
    (((s.conn c).kind = .webSocket → (s.conn c).closed = true) ∧ s.owner fd = some c ∧
      s.closeConn a c =
        (s.setConn c { s.conn c with closed := true, sockfd := none }).closeFd a fd) := by
  obtain ⟨hmade, hacc, hlive⟩ := hl
  have hsound := h.conns c hmade
  have howner : (s.conn c).sockfd = some (s.conn c).accepted →
      (s.conn c).sockfd = some fd ∧ s.owner fd = some c := by
    intro hs
    rw [hacc] at hs
    exact ⟨hs, (h.owner fd c).mpr ⟨hmade, hs⟩⟩
  unfold closeConn
  cases hk : (s.conn c).kind with
  | http =>
    cases hc : (s.conn c).closed with
    | true =>
      refine .inl ⟨rfl, rfl, ?_⟩
      rw [BaseConn.closeConn_http_closed hk hc]
      exact setConn_self s c
    | false =>
      obtain ⟨hs, ho⟩ := howner ((hsound.http hk).mp hc)
      refine .inr (.inr ⟨fun hk' => absurd hk' (by decide), ho, ?_⟩)
      rw [BaseConn.closeConn_http hk hc, hs]
  | webSocket =>
    cases hc : (s.conn c).closed with
    | false =>
      refine .inr (.inl ⟨rfl, rfl, ?_⟩)
      rw [BaseConn.closeConn_webSocket hk hc]
    | true =>
      obtain ⟨hs, ho⟩ := howner (hsound.webSocket hk hlive)
      refine .inr (.inr ⟨fun _ => rfl, ho, ?_⟩)
      rw [BaseConn.closeConn_webSocket_closed hk hc, hs]

theorem closeConn_conn_of_ne (s : NetServer) (a : ConnId) {c c' : ConnId} (h : c' ≠ c) :
    (s.closeConn a c).conn c' = s.conn c' := by
  unfold closeConn
  split <;> exact setConn_conn_of_ne s h _

theorem closeConn_closed (s : NetServer) (a c : ConnId) : ((s.closeConn a c).conn c).closed = true := by
  have hx : ∀ x : BaseConn, x.closeConn.2.closed = true := by
    intro x
    unfold BaseConn.closeConn
    split <;> split <;> simp_all
  unfold closeConn
  split
  · rename_i x heq
    rw [setConn_conn_self]
    simpa [heq] using hx (s.conn c)
  · rename_i fd x heq
    show ((s.setConn c x).conn c).closed = true
    rw [setConn_conn_self]
    simpa [heq] using hx (s.conn c)

theorem closeConn_users (s : NetServer) (a c : ConnId) : (s.closeConn a c).users = s.users := by
  unfold closeConn
  split <;> rfl

/-- An entry of `m_users` is dropped and its removal logged. -/
def dropUser (s : NetServer) (a : ConnId) (fd : Nat) : NetServer :=
  { s with users := s.users.erase fd, log := ⟨.erase, a, s.owner fd⟩ :: s.log }

/-- What `closeConnection` comes to: nothing, or the end of an entry of `m_users` that is open. -/
theorem closeConnection_cases (s : NetServer) (a : ConnId) (fd : Nat) :
    s.closeConnection a fd = s ∨ ∃ c, s.users fd = some c ∧ (s.conn c).isClosed = false ∧
      s.closeConnection a fd = ((s.dropUser a fd).removeFd a fd).closeConn a c := by
  unfold closeConnection
  cases hu : s.users fd with
  | none => exact .inl rfl
  | some c =>
    cases hopen : (s.conn c).isClosed with
    | true => exact .inl (by simp [hopen])
    | false => exact .inr ⟨c, rfl, hopen, by simp only [hopen]; rfl⟩

theorem eraseUser_ne (hl : s.Live c fd) (hback : ∀ fd', s.users fd' = some c → (s.conn c).accepted = fd') :
    ∀ fd', s.users.erase fd fd' ≠ some c := by
  intro fd' hu
  obtain ⟨hfd, hu⟩ := Table.of_erase_eq_some hu
  exact hfd ((hback fd' hu).symm.trans hl.2.1)

theorem closeConn_next (s : NetServer) (a c : ConnId) : (s.closeConn a c).next = s.next := by
  unfold closeConn
  split <;> rfl

theorem eraseUser_closeConn (s : NetServer) (a c : ConnId) (fd : Nat) :
    ({ s.closeConn a c with users := (s.closeConn a c).users.erase fd } : NetServer) =
      ({ s with users := s.users.erase fd } : NetServer).closeConn a c := by
  unfold closeConn
  dsimp only
  split <;> rfl

theorem destroy_cases (h : s.Sound) (hl : s.Live c fd) :
    ((s.conn c).kind = .http ∧ (s.conn c).closed = true ∧
      s.destroy c = s.setConn c { s.conn c with destroyed := true }) ∨
    ((s.conn c).kind = .webSocket ∧ (s.conn c).closed = false ∧
      s.destroy c = s.setConn c { s.conn c with closed := true, destroyed := true }) ∨
    (s.owner fd = some c ∧ s.destroy c =
      (s.setConn c { s.conn c with closed := true, sockfd := none, destroyed := true }).closeFd c fd) := by
  have hset : ∀ x y : BaseConn, (s.setConn c x).setConn c y = s.setConn c y := by
    intro x y
    unfold setConn
    dsimp only
    congr 1
    funext c'
    by_cases hcc : c' = c
    · simp [hcc]
    · simp [hcc]
  rcases closeConn_cases h hl c with ⟨hk, hc, heq⟩ | ⟨hk, hc, heq⟩ | ⟨-, ho, heq⟩
  · refine .inl ⟨hk, hc, ?_⟩
    simp only [destroy, heq]
  · refine .inr (.inl ⟨hk, hc, ?_⟩)
    simp only [destroy, heq, hset, setConn_conn_self]
  · refine .inr (.inr ⟨ho, ?_⟩)
    have hclose : ∀ x y : BaseConn, ((s.setConn c x).closeFd c fd).setConn c y =
        ((s.setConn c x).setConn c y).closeFd c fd := fun x y => rfl
    have hconn : ∀ x : BaseConn, ((s.setConn c x).closeFd c fd).conn c = x :=
      fun x => setConn_conn_self s c x
    simp only [destroy, heq, hclose, hset, hconn]

/-! ## Accepting -/

theorem handleNewConnection_conn_self (s : NetServer) (kind : ConnKind) (fd : Nat) :
    (s.handleNewConnection kind fd).conn s.next = (BaseConn.make kind fd).init fd := by
  simp [handleNewConnection, NetServer.refreshTimer, initConn, setConn]

theorem handleNewConnection_conn_of_ne (s : NetServer) (kind : ConnKind) (fd : Nat)
    (h : c ≠ s.next) : (s.handleNewConnection kind fd).conn c = s.conn c := by
  simp [handleNewConnection, NetServer.refreshTimer, initConn, setConn, h]

namespace Sound

theorem closeConn (h : s.Sound) (hl : s.Live c fd) (a : ConnId)
    (hws : (s.conn c).kind = .webSocket → (s.conn c).closed = false ∧ ∀ fd, s.users fd ≠ some c) :
    (s.closeConn a c).Sound := by
  have hsound := h.conns c hl.1
  rcases closeConn_cases h hl a with ⟨-, -, heq⟩ | ⟨hk, -, heq⟩ | ⟨hc, ho, heq⟩
  · rw [heq]
    exact h
  · rw [heq]
    refine h.setConn ⟨⟨hsound.sockfd, ?_, hsound.webSocket⟩, rfl, ?_, ?_⟩ rfl
    · simp [hk]
    · exact fun hd => .inl hd
    · exact fun _ _ => (hws hk).2
  · have hk : (s.conn c).kind = .http := by
      cases hk : (s.conn c).kind with
      | http => rfl
      | webSocket =>
        rw [hc hk] at hws
        cases (hws hk).1
    rw [heq]
    refine h.setConn_closeFd ⟨⟨?_, ?_, ?_⟩, rfl, ?_, ?_⟩ ho rfl
    · simp
    · simp
    · simp [hk]
    · exact fun hd => .inl hd
    · simp [hk]

theorem closeConnection (h : s.Sound) (a : ConnId) (fd : Nat) : (s.closeConnection a fd).Sound := by
  rcases closeConnection_cases s a fd with heq | ⟨c, hu, hopen, heq⟩
  · rw [heq]
    exact h
  · have htouch := removeFd_touches (s.dropUser a fd) a fd
    have hrem := (h.eraseUser fd (⟨.erase, a, s.owner fd⟩ :: s.log)).touches htouch
    have hwithout := eraseUser_ne (h.users fd c hu)
      (fun fd' hu' => (h.users fd' c hu').2.1)
    rw [heq]
    rw [htouch.eq] at hrem ⊢
    exact hrem.closeConn (h.users fd c hu) a (fun _ => ⟨(h.sockfd_of_users hu hopen).1, hwithout⟩)

theorem shutdownConn (h : s.Sound) (hu : s.users fd = some c) (a : ConnId) :
    ({ s.closeConn a c with users := (s.closeConn a c).users.erase fd } : NetServer).Sound := by
  have hwithout := eraseUser_ne (h.users fd c hu) (fun fd' hu' => (h.users fd' c hu').2.1)
  rw [eraseUser_closeConn]
  exact (h.eraseUser fd s.log).closeConn (h.users fd c hu) a
    (fun hk => ⟨h.usersOpen fd c hu hk, hwithout⟩)

theorem destroy (h : s.Sound) (hl : s.Live c fd) (hr : s.Unreferenced c) : (s.destroy c).Sound := by
  have hsound := h.conns c hl.1
  rcases destroy_cases h hl with ⟨hk, hc, heq⟩ | ⟨hk, hc, heq⟩ | ⟨ho, heq⟩
  · rw [heq]
    refine h.setConn ⟨⟨hsound.sockfd, hsound.http, ?_⟩, rfl, fun _ => .inr hr, fun _ _ => hr.1⟩ rfl
    simp
  · rw [heq]
    refine h.setConn ⟨⟨hsound.sockfd, ?_, ?_⟩, rfl, fun _ => .inr hr, fun _ _ => hr.1⟩ rfl
    · simp [hk]
    · simp
  · rw [heq]
    refine h.setConn_closeFd ⟨⟨?_, ?_, ?_⟩, rfl, fun _ => .inr hr, fun _ _ => hr.1⟩ ho rfl
    · simp
    · simp
    · simp

theorem handleNewConnection (h : s.Sound) (kind : ConnKind) (hfree : s.owner fd = none) :
    (s.handleNewConnection kind fd).Sound := by
  have hself := handleNewConnection_conn_self s kind fd
  have hne : ∀ c < s.next, (s.handleNewConnection kind fd).conn c = s.conn c :=
    fun c hc => handleNewConnection_conn_of_ne s kind fd (Nat.ne_of_lt hc)
  have hlive : ∀ c fd', s.Live c fd' → (s.handleNewConnection kind fd).Live c fd' := by
    intro c fd' ⟨hmade, hacc, hd⟩
    refine ⟨Nat.lt_succ_of_lt hmade, ?_, ?_⟩
    · rw [hne c hmade, hacc]
    · rw [hne c hmade, hd]
  refine ⟨⟨?_, ?_, ?_⟩, ?_, ?_, ?_⟩
  · intro fd' c hu
    change s.users.insert fd s.next fd' = some c at hu
    by_cases hfd : fd' = fd
    · subst hfd
      rw [Table.insert_self] at hu
      cases hu
      refine ⟨Nat.lt_succ_self _, ?_, ?_⟩
      · rw [hself, BaseConn.init_accepted]
        rfl
      · rw [hself, BaseConn.init_destroyed]
        rfl
    · rw [Table.insert_of_ne _ hfd] at hu
      exact hlive c fd' (h.users fd' c hu)
  · intro fd' c hu
    change s.users.insert fd s.next fd' = some c at hu
    by_cases hfd : fd' = fd
    · subst hfd
      rw [Table.insert_self] at hu
      cases hu
      rw [hself]
      simp
    · rw [Table.insert_of_ne _ hfd] at hu
      rw [hne c (h.users fd' c hu).1]
      exact h.usersOpen fd' c hu
  · intro t ht
    exact hlive t.conn t.fd (h.tasks t ht)
  · intro c hc
    by_cases hcn : c = s.next
    · rw [hcn, hself]
      exact BaseConn.sound_make_init kind fd
    · have hlt : c < s.next := Nat.lt_of_le_of_ne (Nat.le_of_lt_succ hc) hcn
      rw [hne c hlt]
      exact h.conns c hlt
  · intro fd' c
    show s.owner.insert fd s.next fd' = some c ↔
      c < s.next + 1 ∧ ((s.handleNewConnection kind fd).conn c).sockfd = some fd'
    by_cases hcn : c = s.next
    · subst hcn
      rw [hself, BaseConn.init_sockfd]
      by_cases hfd : fd' = fd
      · simp [hfd]
      · rw [Table.insert_of_ne _ hfd]
        refine iff_of_false ?_ ?_
        · intro ho
          exact absurd (h.owner_some ho).1 (Nat.lt_irrefl _)
        · rintro ⟨-, heq⟩
          exact hfd (Option.some.inj heq).symm
    · rw [handleNewConnection_conn_of_ne s kind fd hcn]
      by_cases hfd : fd' = fd
      · subst hfd
        rw [Table.insert_self]
        refine iff_of_false (fun heq => hcn (Option.some.inj heq).symm) ?_
        rintro ⟨hlt, hs⟩
        have ho := (h.owner fd' c).mpr ⟨Nat.lt_of_le_of_ne (Nat.le_of_lt_succ hlt) hcn, hs⟩
        rw [hfree] at ho
        cases ho
      · rw [Table.insert_of_ne _ hfd, h.owner fd' c]
        refine and_congr_left ?_
        intro _
        exact ⟨Nat.lt_succ_of_lt, fun hlt => Nat.lt_of_le_of_ne (Nat.le_of_lt_succ hlt) hcn⟩
  · intro fd' hreg
    change (s.epoll.insert fd (some .input) fd').isSome = true at hreg
    show (s.owner.insert fd s.next fd').isSome = true
    by_cases hfd : fd' = fd
    · simp [hfd]
    · rw [Table.insert_of_ne _ hfd] at hreg ⊢
      exact h.epoll fd' hreg

/-- Initialising a live object again with the number that a task holds. -/
theorem initConn_eq_self (h : s.Sound) (hl : s.Live c fd) (hc : (s.conn c).closed = false) :
    s.initConn c fd = s := by
  have hsound := h.conns c hl.1
  have hsock : (s.conn c).sockfd = some (s.conn c).accepted := by
    cases hk : (s.conn c).kind with
    | http => exact (hsound.http hk).mp hc
    | webSocket => exact hsound.webSocket hk hl.2.2
  unfold NetServer.initConn
  rw [← hl.2.1, BaseConn.init_eq_self hsock hc, setConn_self]

theorem initConn (h : s.Sound) (hl : s.Live c fd)
    (hopen : (s.conn c).kind = .http → (s.conn c).closed = false) : (s.initConn c fd).Sound := by
  have hsound := h.conns c hl.1
  cases hk : (s.conn c).kind with
  | http =>
    rw [h.initConn_eq_self hl (hopen hk)]
    exact h
  | webSocket =>
    have hsock := hsound.webSocket hk hl.2.2
    rw [hl.2.1] at hsock
    refine h.setConn ⟨⟨?_, ?_, ?_⟩, ?_, ?_, ?_⟩ ?_
    · simp [hl.2.1]
    · simp [hk]
    · simp [hl.2.1]
    · simp
    · simp [hl.2.2]
    · simp
    · simp [hsock]

end Sound

/-! ## Steps -/

/-- What a step of a task does. -/
inductive StageEffect (s : NetServer) (c : ConnId) (fd : Nat) (answer : Answer) :
    Stage → NetServer → Option Stage → Prop
  | nothing {stage : Stage} {next : Option Stage}
      (hnext : stage.checksOpen = false ∨ ∀ n ∈ next, n.checksOpen = true) :
      StageEffect s c fd answer stage s next
  | failed (hk : (s.conn c).kind = .http) (ha : answer = .process .failed) :
      StageEffect s c fd answer .process (s.closeConn c c) (some .rearm)
  | touches {stage : Stage} {s' : NetServer} {next : Option Stage} (ht : Touches s c fd s')
      (hepoll : ∀ fd', (s'.epoll fd').isSome = (s.epoll fd').isSome)
      (hopen : stage.checksOpen = false ∨ (s.conn c).isClosed = false) :
      StageEffect s c fd answer stage s' next
  | refreshTimer {stage : Stage} (hopen : stage.checksOpen = false ∨ (s.conn c).isClosed = false) :
      StageEffect s c fd answer stage (s.refreshTimer c fd) none
  | init : StageEffect s c fd answer .init (s.initConn c fd) (some (.modFd .input))
  | closeConnection : StageEffect s c fd answer .closeConnection (s.closeConnection c fd) none

theorem runStage_effect (h : s.Sound) (hl : s.Live c fd) {stage : Stage} {answer : Answer}
    {next : Option Stage} (hr : s.runStage c fd stage answer = some (s', next)) :
    StageEffect s c fd answer stage s' next := by
  unfold runStage at hr
  split at hr
  · cases hr
    exact .nothing (.inl rfl)
  · rename_i outcome
    split at hr
    · cases hr
      exact .nothing (.inl rfl)
    · cases hr
      exact .nothing (.inl rfl)
    · rename_i hfailed
      cases hr
      have hk := BaseConn.process_failed_kind hfailed
      cases outcome <;> simp [BaseConn.process, hk] at hfailed
      exact .failed hk rfl
  · cases hr
    unfold writeCallback
    split
    · exact .nothing (.inr (fun n hn => Option.some.inj hn ▸ rfl))
    · rename_i hopen
      split
      · exact .nothing (.inr (fun n hn => Option.some.inj hn ▸ rfl))
      · rename_i fd' hs
        have hfd := (h.conns c hl.1).sockfd fd' hs
        rw [hl.2.1] at hfd
        subst hfd
        exact .touches (modFd_touches s c fd' .output) (fun fd'' => modFd_epoll s c fd' fd'' .output)
          (.inr (by simpa using hopen))
  · cases hr
    exact .touches (modFd_touches s c fd .input) (fun fd' => modFd_epoll s c fd fd' .input) (.inl rfl)
  · cases hr
    split
    · exact .nothing (.inr (fun n hn => absurd hn (by simp)))
    · rename_i hopen
      exact .refreshTimer (.inr (by simpa using hopen))
  · split at hr <;> cases hr <;> exact .nothing (.inl rfl)
  · split at hr <;> cases hr <;> exact .nothing (.inl rfl)
  · cases hr
    exact .init
  · rename_i interest
    cases hr
    exact .touches (modFd_touches s c fd interest) (fun fd' => modFd_epoll s c fd fd' interest) (.inl rfl)
  · cases hr
    exact .refreshTimer (.inl rfl)
  · cases hr
    exact .closeConnection
  · cases hr

theorem closeConn_tasks (s : NetServer) (a c : ConnId) : (s.closeConn a c).tasks = s.tasks := by
  unfold closeConn
  split <;> rfl

theorem closeConnection_tasks (s : NetServer) (a : ConnId) (fd : Nat) :
    (s.closeConnection a fd).tasks = s.tasks := by
  rcases closeConnection_cases s a fd with heq | ⟨c, -, -, heq⟩
  · rw [heq]
  · rw [heq, closeConn_tasks, (removeFd_touches (s.dropUser a fd) a fd).eq]
    rfl

theorem StageEffect.tasks {answer : Answer} {stage : Stage} {next : Option Stage}
    (he : StageEffect s c fd answer stage s' next) : s'.tasks = s.tasks := by
  cases he with
  | nothing => rfl
  | failed => exact closeConn_tasks s c c
  | touches ht => rw [ht.eq]
  | refreshTimer => rfl
  | init => rfl
  | closeConnection => exact closeConnection_tasks s c fd

theorem mem_setTask {i : Nat} {t t' : Task} {next : Option Stage}
    (ht : t' ∈ (s.setTask i t next).tasks) :
    t' ∈ s.tasks ∨ ∃ stage, next = some stage ∧ t' = { t with stage := stage } := by
  cases next with
  | none => exact .inl (List.mem_of_mem_eraseIdx ht)
  | some stage =>
    rcases List.mem_or_eq_of_mem_set ht with hmem | heq
    · exact .inl hmem
    · exact .inr ⟨stage, rfl, heq⟩

/-- What the handling of an event does. -/
inductive EventEffect (s : NetServer) : Answer → NetServer → Prop
  | quiet (answer : Answer) (isRunning : Bool) :
      EventEffect s answer { s with isRunning := isRunning }
  | accept {kind : ConnKind} {fd : Nat} (hfree : s.owner fd = none) :
      EventEffect s (.accept (some fd)) (s.handleNewConnection kind fd)
  | addTask {answer : Answer} {c : ConnId} {fd : Nat} {stage : Stage} (hu : s.users fd = some c)
      (hopen : (s.conn c).isClosed = false) :
      EventEffect s answer (s.addTask ⟨c, fd, stage⟩)
  | closeConnection {answer : Answer} {c : ConnId} {fd : Nat} (hu : s.users fd = some c)
      (hopen : (s.conn c).isClosed = false) : EventEffect s answer (s.closeConnection c fd)

theorem handleEvent_effect {model : ActorModel} {e : Event} {answer : Answer}
    (hr : s.handleEvent model e answer = some s') : EventEffect s answer s' := by
  unfold handleEvent at hr
  split at hr
  · cases hr
    exact .quiet _ s.isRunning
  · split at hr
    · rename_i hfree
      cases hr
      exact .accept hfree.2
    · cases hr
  · cases hr
    exact .quiet _ _
  · cases hr
    unfold handleReadEvent
    split
    · exact .quiet _ s.isRunning
    · rename_i c hu
      split
      · exact .quiet _ s.isRunning
      · rename_i hopen
        have hopen : (s.conn c).isClosed = false := by simpa using hopen
        cases model with
        | Reactor => exact .addTask hu hopen
        | Proactor =>
          dsimp only
          split
          · exact .addTask hu hopen
          · exact .closeConnection hu hopen
  · cases hr
    unfold handleWriteEvent
    split
    · exact .quiet _ s.isRunning
    · rename_i c hu
      split
      · exact .quiet _ s.isRunning
      · rename_i hopen
        exact .addTask hu (by simpa using hopen)
  · cases hr
    exact .quiet _ s.isRunning
  · cases hr

theorem unreferenced_of_isReferenced (h : s.Sound) (hr : s.isReferenced c = false) :
    s.Unreferenced c := by
  simp only [isReferenced, Bool.or_eq_false_iff, decide_eq_false_iff_not, List.any_eq_false,
    decide_eq_true_eq] at hr
  refine ⟨?_, hr.2⟩
  intro fd hu
  apply hr.1
  rw [(h.users fd c hu).2.1]
  exact hu

theorem disarm_epoll (s : NetServer) (fds : List Nat) (fd : Nat) :
    ((s.disarm fds).epoll fd).isSome = (s.epoll fd).isSome := by
  unfold disarm
  dsimp only
  split
  · exact Option.isSome_map
  · rfl

/-- No step of a run initialises a closed `HttpConn`. -/
def KeepsClosed (s : NetServer) (action : Action) : Prop :=
  ∀ t ∈ s.worked action, t.stage = .init → (s.conn t.conn).kind = .http →
    (s.conn t.conn).closed = false

namespace Sound

theorem handle (h : s.Sound) {answer : Answer} (he : EventEffect s answer s') : s'.Sound := by
  cases he with
  | quiet => exact ⟨⟨h.users, h.usersOpen, h.tasks⟩, h.conns, h.owner, h.epoll⟩
  | accept hfree => exact h.handleNewConnection _ hfree
  | addTask hu =>
    apply h.setTasks
    intro t ht
    rcases List.mem_append.mp ht with ht | ht
    · exact h.tasks t ht
    · rw [List.mem_singleton.mp ht]
      exact h.users _ _ hu
  | closeConnection => exact h.closeConnection _ _

theorem stage (h : s.Sound) (hl : s.Live c fd) {answer : Answer} {stage : Stage}
    {next : Option Stage} (he : StageEffect s c fd answer stage s' next)
    (hkeeps : stage = .init → (s.conn c).kind = .http → (s.conn c).closed = false) : s'.Sound := by
  cases he with
  | nothing => exact h
  | failed hk => exact h.closeConn hl _ (fun hk' => by rw [hk] at hk'; cases hk')
  | touches ht => exact h.touches ht
  | refreshTimer => exact h.refreshTimer _ _
  | init => exact h.initConn hl (hkeeps rfl)
  | closeConnection => exact h.closeConnection _ _

theorem setTask (h : s.Sound) {t : Task} (ht : t ∈ s.tasks) (i : Nat) (next : Option Stage) :
    (s.setTask i t next).Sound := by
  have hmem : ∀ t' ∈ (s.setTask i t next).tasks, s.Live t'.conn t'.fd := by
    intro t' ht'
    rcases mem_setTask ht' with ht' | ⟨stage, -, rfl⟩
    · exact h.tasks t' ht'
    · exact h.tasks t ht
  cases next with
  | none => exact h.setTasks hmem
  | some stage => exact h.setTasks hmem

end Sound

/-- A step of a task: what its stage does, and what is left of the task. -/
theorem work_cases (h : s.Sound) {i : Nat} {answer : Answer} (hr : s.work i answer = some s') :
    ∃ t s₁ next, s.tasks[i]? = some t ∧ s.Live t.conn t.fd ∧
      StageEffect s t.conn t.fd answer t.stage s₁ next ∧ t ∈ s₁.tasks ∧ s' = s₁.setTask i t next := by
  unfold work at hr
  split at hr
  · cases hr
  · rename_i t ht
    split at hr
    · cases hr
    · rename_i s₁ next hstage
      cases hr
      have hmem := List.mem_of_getElem? ht
      have hl := h.tasks t hmem
      have he := runStage_effect h hl hstage
      refine ⟨t, s₁, next, ht, hl, he, ?_, rfl⟩
      rw [he.tasks]
      exact hmem

/-- Every step that leaves the closed connections closed keeps the server sound. -/
theorem Sound.step (h : s.Sound) {model : ActorModel} {action : Action}
    (hkeeps : s.KeepsClosed action) (hr : step model s action = some s') : s'.Sound := by
  cases action with
  | epollWait events =>
    simp only [NetServer.step] at hr
    split at hr
    · cases hr
      refine ⟨⟨h.users, h.usersOpen, h.tasks⟩, h.conns, h.owner, ?_⟩
      intro fd hreg
      apply h.epoll fd
      rw [← disarm_epoll s (events.filterMap Event.fd) fd]
      exact hreg
    · cases hr
  | expire fd =>
    simp only [NetServer.step] at hr
    split at hr
    · cases hr
    · split at hr
      · cases hr
        rename_i c _ _
        have hc := h.closeConnection c fd
        exact ⟨⟨hc.users, hc.usersOpen, hc.tasks⟩, hc.conns, hc.owner, hc.epoll⟩
      · cases hr
  | handle answer =>
    simp only [NetServer.step] at hr
    split at hr
    · cases hr
    · rename_i e events _
      have h' : ({ s with events := events, ticking := false } : NetServer).Sound :=
        ⟨⟨h.users, h.usersOpen, h.tasks⟩, h.conns, h.owner, h.epoll⟩
      exact h'.handle (handleEvent_effect hr)
  | work i answer =>
    obtain ⟨t, s₁, next, ht, hl, he, hmem, rfl⟩ := work_cases h hr
    exact (h.stage hl he (hkeeps t ht)).setTask hmem i next
  | destroy c =>
    simp only [NetServer.step] at hr
    split at hr
    · rename_i hc
      cases hr
      exact h.destroy ⟨hc.1, rfl, hc.2.1⟩ (unreferenced_of_isReferenced h hc.2.2)
    · cases hr
  | shutdownConn fd =>
    simp only [NetServer.step] at hr
    split at hr
    · cases hr
    · rename_i c hu
      split at hr
      · cases hr
      · cases hr
        exact h.shutdownConn hu c

end NetServer

end ModularNetServer
