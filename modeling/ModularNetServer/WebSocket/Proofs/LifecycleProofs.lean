import ModularNetServer.WebSocket.Lifecycle

/-!
# What closes a connection

The test of the exchange in `closeConn` is the wrong way round: the first closing call after an `init`
returns at once, and the second one closes the socket.
-/

namespace ModularNetServer

open Cxx

namespace WsLife

variable {m : WebsocketConnManager}

theorem after_concat (m : WebsocketConnManager) (calls : List LifeCall) (call : LifeCall) :
    after m (calls ++ [call]) = (after m calls).apply call := by
  simp [after]

/-- An `init` leaves the connection open on its number. -/
theorem after_init (m : WebsocketConnManager) (calls : List LifeCall) (fd : Nat) :
    (after m (calls ++ [.init fd])).conn.sockfd = fd ∧
      (after m (calls ++ [.init fd])).conn.isClosed = false := by
  rw [after_concat]
  show ((after m calls).conn.init fd).sockfd = fd ∧ ((after m calls).conn.init fd).isClosed = false
  unfold WebSocketConn.init
  split_ifs with hsame
  · exact ⟨hsame.2.1.symm, hsame.2.2⟩
  · exact ⟨rfl, rfl⟩

/-- The first closing call after an `init` closes nothing. -/
theorem closeConn_after_init (m : WebsocketConnManager) (calls : List LifeCall) (fd : Nat) :
    (after m (calls ++ [.init fd])).closeConn =
      (none, { after m (calls ++ [.init fd]) with
        conn := { (after m (calls ++ [.init fd])).conn with isClosed := true } }) := by
  unfold closeConn WebSocketConn.closeConn
  rw [(after_init m calls fd).2]
  rfl

/-- The second closing call closes the socket and removes its number. -/
theorem closeConn_second (m : WebsocketConnManager) (calls : List LifeCall) (fd : Nat) :
    (after m (calls ++ [.init fd, .closeConn])).closeConn.1 = some (fd : Int) ∧
      (after m (calls ++ [.init fd, .closeConn])).closeConn.2.manager =
        (after m (calls ++ [.init fd])).manager.removeFd fd ∧
      (after m (calls ++ [.init fd, .closeConn])).closeConn.2.conn.sockfd = -1 := by
  have hconcat : calls ++ [.init fd, .closeConn] = calls ++ [.init fd] ++ [.closeConn] := by simp
  rw [hconcat, after_concat, apply, closeConn_after_init]
  obtain ⟨hfd, -⟩ := after_init m calls fd
  unfold closeConn WebSocketConn.closeConn
  dsimp only
  rw [hfd, if_pos rfl, if_neg (by omega)]
  exact ⟨rfl, rfl, rfl⟩

/-- Only an object on which nothing is ever called obeys the law. -/
theorem lawful_iff (m : WebsocketConnManager) (calls : List LifeCall) : Lawful m calls ↔ calls = [] := by
  constructor
  · intro h
    by_contra hne
    obtain ⟨pre, last, rfl⟩ : ∃ pre last, calls = pre ++ [last] :=
      ⟨_, _, (List.dropLast_append_getLast hne).symm⟩
    cases last with
    | init fd =>
      -- the destructor is the first closing call
      have hfirst := (h.first_closes pre fd (.inr rfl)).1
      rw [closeConn_after_init] at hfirst
      cases hfirst
    | closeConn =>
      have hclosed := (h.isClosed_iff pre .closeConn (List.prefix_refl _)).mpr rfl
      cases hclosed
  · rintro rfl
    have hnone : ∀ pre call, ¬ ClosingCallAfter [] (pre ++ [call]) := by
      rintro pre call (hnext | hlast)
      · simp at hnext
      · simp at hlast
    refine ⟨fun pre fd h => absurd h (hnone _ _), fun pre h => absurd h (hnone _ _), ?_⟩
    intro pre call h
    simp at h

/-- After `init` and `closeConn` nothing has been closed, `isClosed` says no, and the destructor closes the
    socket. -/
theorem closeConn_leaves_open :
    ¬ Lawful WebsocketConnManager.empty [.init 5, .closeConn] ∧
      (after WebsocketConnManager.empty [.init 5]).closeConn.1 = none ∧
      (after WebsocketConnManager.empty [.init 5, .closeConn]).conn.isClosedCall = false ∧
      (after WebsocketConnManager.empty [.init 5, .closeConn]).closeConn.1 = some 5 := by
  refine ⟨?_, by decide, rfl, by decide⟩
  intro h
  have hfirst := (h.first_closes [] 5 (.inl (by decide))).1
  revert hfirst
  decide

end WsLife

end ModularNetServer
