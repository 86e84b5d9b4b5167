import ModularNetServer.Net.BaseConn

/-!
# Connection objects

`BaseConn.Sound` is what the operations on an object keep up between its socket and its closed flag, as
long as no closed `HttpConn` is initialised again. The calls on an `HttpConn` are seen by the server as
the operations of `BaseConn`.
-/

namespace ModularNetServer

namespace BaseConn

/-- The socket of an object is the one it was accepted with; an `HttpConn` has it until it is closed,
    a `WebSocketConn` until it is destroyed. -/
structure Sound (x : BaseConn) : Prop where
  sockfd : ∀ fd, x.sockfd = some fd → fd = x.accepted
  http : x.kind = .http → (x.closed = false ↔ x.sockfd = some x.accepted)
  webSocket : x.kind = .webSocket → x.destroyed = false → x.sockfd = some x.accepted

@[simp] theorem init_kind (x : BaseConn) (fd : Nat) : (x.init fd).kind = x.kind := by
  unfold init; split <;> [rfl; (split <;> rfl)]

@[simp] theorem init_accepted (x : BaseConn) (fd : Nat) : (x.init fd).accepted = x.accepted := by
  unfold init; split <;> [rfl; (split <;> rfl)]

@[simp] theorem init_destroyed (x : BaseConn) (fd : Nat) : (x.init fd).destroyed = x.destroyed := by
  unfold init; split <;> [rfl; (split <;> rfl)]

@[simp] theorem init_sockfd (x : BaseConn) (fd : Nat) : (x.init fd).sockfd = some fd := by
  unfold init
  split
  · rfl
  · split
    · rename_i h
      exact h.1
    · rfl

@[simp] theorem init_closed (x : BaseConn) (fd : Nat) : (x.init fd).closed = false := by
  unfold init
  split
  · rfl
  · split
    · rename_i h
      exact h.2
    · rfl

theorem sound_make_init (kind : ConnKind) (fd : Nat) : ((make kind fd).init fd).Sound where
  sockfd := by simp [make]
  http := by simp [make]
  webSocket := by simp [make]

/-- An open object that is initialised with its own number stays as it is. -/
theorem init_eq_self {x : BaseConn} (hx : x.sockfd = some x.accepted) (hc : x.closed = false) :
    x.init x.accepted = x := by
  obtain ⟨kind, accepted, sockfd, closed, destroyed⟩ := x
  simp only at hx hc
  subst hx hc
  cases kind <;> simp [init]

/-! ## Closing -/

theorem isClosed_http {x : BaseConn} (hk : x.kind = .http) : x.isClosed = x.closed := by
  simp [isClosed, hk]

theorem isClosed_webSocket {x : BaseConn} (hk : x.kind = .webSocket) : x.isClosed = false := by
  simp [isClosed, hk]

theorem closeConn_http {x : BaseConn} (hk : x.kind = .http) (hc : x.closed = false) :
    x.closeConn = (x.sockfd, { x with closed := true, sockfd := none }) := by
  simp [closeConn, hk, hc]

theorem closeConn_http_closed {x : BaseConn} (hk : x.kind = .http) (hc : x.closed = true) :
    x.closeConn = (none, x) := by
  simp [closeConn, hk, hc]

theorem closeConn_webSocket {x : BaseConn} (hk : x.kind = .webSocket) (hc : x.closed = false) :
    x.closeConn = (none, { x with closed := true }) := by
  simp [closeConn, hk, hc]

theorem closeConn_webSocket_closed {x : BaseConn} (hk : x.kind = .webSocket) (hc : x.closed = true) :
    x.closeConn = (x.sockfd, { x with closed := true, sockfd := none }) := by
  obtain ⟨kind, accepted, sockfd, closed, destroyed⟩ := x
  simp only at hk hc
  subst hk hc
  simp [closeConn]

theorem process_failed_kind {x : BaseConn} {outcome : Processed} (h : x.process outcome = .failed) :
    x.kind = .http := by
  cases hk : x.kind with
  | http => rfl
  | webSocket => cases outcome <;> simp [process, hk] at h

end BaseConn

/-! ## HTTP connections -/

namespace HttpConn

theorem toBaseConn_init (c : HttpConn) (accepted fd : Nat) :
    (c.init fd).toBaseConn accepted = (c.toBaseConn accepted).init fd := by
  have h : (fd : Int) ≠ -1 := by omega
  simp [toBaseConn, init, BaseConn.init, h]

theorem toBaseConn_closeConn (c : HttpConn) (accepted : Nat) :
    c.closeConn.toBaseConn accepted = ((c.toBaseConn accepted).closeConn).2 := by
  cases hc : c.isClosed <;> simp [toBaseConn, closeConn, BaseConn.closeConn, hc]

theorem toBaseConn_congr {c c' : HttpConn} (hs : c'.sockfd = c.sockfd) (hc : c'.isClosed = c.isClosed)
    (accepted : Nat) : c'.toBaseConn accepted = c.toBaseConn accepted := by
  simp [toBaseConn, hs, hc]

theorem toBaseConn_copyResponseData (c : HttpConn) (accepted : Nat) :
    (copyResponseData c).2.toBaseConn accepted = c.toBaseConn accepted := by
  unfold copyResponseData
  split <;> exact toBaseConn_congr rfl rfl accepted

theorem toBaseConn_generateResponse (env : Environment) (w : World) (c : HttpConn) (accepted : Nat) :
    (generateResponse env w c).2.2.toBaseConn accepted = c.toBaseConn accepted := by
  unfold generateResponse
  dsimp only
  split
  · exact toBaseConn_congr rfl rfl accepted
  · rw [toBaseConn_copyResponseData]
    exact toBaseConn_congr rfl rfl accepted

/-- The end of `handleRequest` leaves the connection open, unless no response could be built. -/
theorem finish_toBaseConn (env : Environment) (w : World) (c : HttpConn) (accepted : Nat) :
    (finish env w c).2.2.toBaseConn accepted = c.toBaseConn accepted ∨
      (finish env w c).1 = false ∧
        (finish env w c).2.2.toBaseConn accepted = ((c.toBaseConn accepted).closeConn).2 := by
  have hgen := toBaseConn_generateResponse env w c accepted
  unfold finish
  split
  · exact .inl (toBaseConn_copyResponseData c accepted)
  · split
    · rename_i w' c' heq
      rw [heq] at hgen
      exact .inl hgen
    · rename_i w' c' heq
      rw [heq] at hgen
      refine .inr ⟨rfl, ?_⟩
      rw [toBaseConn_closeConn, hgen]

theorem handleRequest_toBaseConn {env : Environment} {w w' : World} {c c' : HttpConn} {b : Bool}
    (h : handleRequest env w c = .ok (b, w', c')) (accepted : Nat) :
    c'.toBaseConn accepted = c.toBaseConn accepted ∨
      b = false ∧ c'.toBaseConn accepted = ((c.toBaseConn accepted).closeConn).2 := by
  unfold handleRequest at h
  dsimp only at h
  split at h
  · cases h
  · rename_i w₁ r _
    have hfin := finish_toBaseConn env w₁
      { c with httpBase := (gate env w c.httpBase).2.2, httpResponse := r } accepted
    rw [Except.ok.inj h] at hfin
    exact hfin

/-- **What `process` does to a connection**: it has one of the three outcomes, and only a failure
    closes the connection. -/
theorem process_toBaseConn {env : Environment} {w w' : World} {c c' : HttpConn} {b : Bool}
    (h : process env w c = .ok (b, w', c')) (accepted : Nat) :
    ∃ outcome : Processed, (b = true ↔ outcome = .done) ∧
      c'.toBaseConn accepted = if outcome = .failed then ((c.toBaseConn accepted).closeConn).2
        else c.toBaseConn accepted := by
  unfold process at h
  dsimp only at h
  split at h
  · -- the address is limited
    split at h
    · cases h
    · cases h
      refine ⟨.done, by simp, ?_⟩
      rw [if_neg (by decide), toBaseConn_copyResponseData]
      exact toBaseConn_congr rfl rfl accepted
  · split at h
    · cases h
    · -- the request is not complete
      cases h
      exact ⟨.incomplete, by simp, toBaseConn_congr rfl rfl accepted⟩
    · rename_i side _
      split at h
      · cases h
      · rename_i w₁ c₁ heq
        cases h
        rcases handleRequest_toBaseConn heq accepted with hsame | ⟨-, hclosed⟩
        · exact ⟨.incomplete, by simp, hsame⟩
        · exact ⟨.failed, by simp, hclosed⟩
      · rename_i w₁ c₁ heq
        cases h
        rcases handleRequest_toBaseConn heq accepted with hsame | ⟨hfalse, -⟩
        · exact ⟨.done, by simp, hsame⟩
        · cases hfalse

theorem read_toBaseConn (mode : TrigMode) (c : HttpConn) (results : List RecvResult)
    (accepted : Nat) : (c.read mode results).2.toBaseConn accepted = c.toBaseConn accepted := by
  have hall : ∀ c : HttpConn, (recvAll c results).2.toBaseConn accepted = c.toBaseConn accepted := by
    induction results with
    | nil => exact fun c => rfl
    | cons result results ih =>
      intro c
      cases result with
      | received first rest =>
        simp only [recvAll]
        split
        · exact toBaseConn_congr rfl rfl accepted
        · rw [ih]
          exact toBaseConn_congr rfl rfl accepted
      | again => rfl
      | failed => rfl
      | eof => rfl
  unfold read
  split
  · rfl
  · cases mode with
    | LT =>
      show (recvOnce c results).2.toBaseConn accepted = _
      unfold recvOnce
      split <;> exact toBaseConn_congr rfl rfl accepted
    | ET => exact hall c

/-- A `read` that returns true has a socket to read from. -/
theorem read_ok_sockfd {mode : TrigMode} {c : HttpConn} {results : List RecvResult}
    (h : (c.read mode results).1 = true) (accepted : Nat) :
    (c.toBaseConn accepted).read true = true := by
  unfold read at h
  split at h
  · cases h
  · rename_i hopen
    rw [not_or] at hopen
    simp [toBaseConn, BaseConn.read, hopen.1]

/-- Of the steps of a connection that do not initialise it, only `process` can change what the server
    sees of it, by closing it. -/
theorem step_toBaseConn {env : Environment} {c c' : HttpConn} {s : Step} (h : step env c s = .ok c')
    (hs : s ≠ .reset) (accepted : Nat) :
    c'.toBaseConn accepted = c.toBaseConn accepted ∨
      (∃ world, s = .process world) ∧
        c'.toBaseConn accepted = ((c.toBaseConn accepted).closeConn).2 := by
  cases s with
  | read mode results =>
    cases h
    exact .inl (read_toBaseConn mode c results accepted)
  | write results =>
    cases h
    exact .inl (toBaseConn_congr rfl rfl accepted)
  | reset => exact absurd rfl hs
  | process world =>
    simp only [step] at h
    split at h
    · cases h
    · rename_i heq
      cases h
      obtain ⟨outcome, -, hview⟩ := process_toBaseConn heq accepted
      by_cases hfailed : outcome = .failed
      · rw [if_pos hfailed] at hview
        exact .inr ⟨⟨world, rfl⟩, hview⟩
      · rw [if_neg hfailed] at hview
        exact .inl hview

end HttpConn

end ModularNetServer
