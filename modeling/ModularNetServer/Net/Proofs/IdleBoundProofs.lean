import ModularNetServer.Net.Proofs.IdleTimeoutProofs
import ModularNetServer.Net.Proofs.TurnProofs

/-!
# The idle timeout is not late

A connection that is open in `m_users` always has a timer, for `refreshTimer` is called when it is accepted and
only `closeConnection` of its number takes the timer away. So when a tick has come to its end, every
connection that is still open has had its timer refreshed within the timeout.
-/

namespace ModularNetServer

namespace NetServer

variable {s s' : NetServer} {c : ConnId} {fd : Nat}

theorem EventEffect.serves {answer : Answer} (h : s.Sound) (he : EventEffect s answer s')
    (hs : s'.Serves fd c) :
    s.Serves fd c ∨ (Action.handle answer).accepts = some fd ∧ c = s.next := by
  cases he with
  | quiet => exact .inl hs
  | accept hfree =>
    rename_i kind fd'
    obtain ⟨hu, hopen⟩ := hs
    change s.users.insert fd' s.next fd = some c at hu
    by_cases hfd : fd = fd'
    · rw [hfd, Table.insert_self] at hu
      exact .inr ⟨congrArg some hfd.symm, (Option.some.inj hu).symm⟩
    · rw [Table.insert_of_ne _ hfd] at hu
      rw [handleNewConnection_conn_of_ne s kind fd' (Nat.ne_of_lt (h.users fd c hu).1)] at hopen
      exact .inl ⟨hu, hopen⟩
  | addTask => exact .inl hs
  | closeConnection => exact .inl ((withdraws_closeConnection h _ _).kept fd c hs).1

theorem TurnEffect.serves {t : Task} {next : Option Stage} {i : Nat}
    (he : TurnEffect s t.conn t.fd t.stage s' next) (hs : (s'.setTask i t next).Serves fd c) :
    s.Serves fd c := by
  rw [serves_setTask] at hs
  generalize t.stage = stage at he
  cases he with
  | keeps => exact hs
  | ends _ hw => exact (hw.kept fd c hs).1
  | rearms interest =>
    rw [(modFd_touches s t.conn t.fd interest).eq] at hs
    exact hs
  | without _ hw => exact (hw.kept fd c hs).1

/-- A connection that is open in `m_users` after an orderly step has been there, or is accepted in it. -/
theorem step_serves (h : s.Sound) {model : ActorModel} {action : Action} (ho : s.Orderly action)
    (hr : step model s action = some s') (hs : s'.Serves fd c) :
    s.Serves fd c ∨ action.accepts = some fd ∧ c = s.next := by
  cases action with
  | epollWait events =>
    simp only [step] at hr
    split at hr
    · cases hr
      exact .inl hs
    · cases hr
  | expire fd' =>
    simp only [step] at hr
    split at hr
    · cases hr
    · split at hr
      · cases hr
        exact .inl ((withdraws_closeConnection h _ fd').kept fd c hs).1
      · cases hr
  | handle answer =>
    simp only [step] at hr
    split at hr
    · cases hr
    · rename_i e events _
      have hsound₀ : (s.popEvent events).Sound := ⟨⟨h.users, h.usersOpen, h.tasks⟩, h.conns, h.owner, h.epoll⟩
      have he : EventEffect (s.popEvent events) answer s' := handleEvent_effect hr
      have hserves := he.serves hsound₀ hs
      exact hserves
  | work i answer =>
    simp only [step, work] at hr
    split at hr
    · cases hr
    · rename_i t ht
      split at hr
      · cases hr
      · rename_i s₁ next hstage
        cases hr
        have hl := h.tasks t (List.mem_of_getElem? ht)
        exact .inl ((runStage_turn h hl (ho.2 t ht) hstage).serves hs)
  | destroy d =>
    simp only [step] at hr
    split at hr
    · rename_i hd
      cases hr
      have hr := unreferenced_of_isReferenced h hd.2.2
      exact .inl ((withdraws_destroy h ⟨hd.1, rfl, hd.2.1⟩ hr).kept fd c hs).1
    · cases hr
  | shutdownConn fd' =>
    simp only [step] at hr
    split at hr
    · cases hr
    · rename_i d hu
      split at hr
      · cases hr
      · cases hr
        exact .inl ((withdraws_shutdownConn h hu d).kept fd c hs).1

/-- After the expiry of a timer no connection of its number is open in `m_users`. -/
theorem step_expire_serves (h : s.Sound) {model : ActorModel} (hr : step model s (.expire fd) = some s') :
    ¬ s'.Serves fd c := by
  simp only [step] at hr
  split at hr
  · cases hr
  · split at hr
    · cases hr
      exact closeConnection_not_serves h _ fd c
    · cases hr

end NetServer

namespace TimedServer

variable {s s' : TimedServer} {now : Int} {model : ActorModel} {c : ConnId} {fd : Nat}

/-- The calls of the server are orderly. -/
def Orderly (s : TimedServer) (action : Int × Action) : Prop :=
  match action.2 with
  | .call a => s.net.Orderly a
  | .pass => True

instance (s : TimedServer) : (action : Int × Action) → Decidable (s.Orderly action)
  | (_, .call a) => inferInstanceAs (Decidable (s.net.Orderly a))
  | (_, .pass) => isTrue trivial

/-- Every open connection in `m_users` has a timer, and the node of a number expires when the timeout has passed
    since a call of `refreshTimer` for the connection whose timer it is. -/
structure Prompt (s : TimedServer) : Prop where
  timely : s.Timely
  owned : s.net.Owned
  served : ∀ fd c, s.net.Serves fd c → (s.net.timers fd).isSome = true
  set : ∀ (fd : Nat) a node, s.net.timers fd = some a → s.timerManager.map fd = some node →
    ∃ t, (a, fd, t) ∈ s.refreshed ∧ node.expire = TimerNode.after t NetServer.timeoutMs

theorem Prompt.call (h : s.Prompt) (hnow : s.clock ≤ now) {action : NetServer.Action}
    (ha : ∀ fd, action ≠ .expire fd) (ho : s.net.Orderly action) (hr : s.call model now action = some s') :
    s'.Prompt := by
  have htimely := h.timely.call hnow ha hr
  unfold TimedServer.call at hr
  split at hr
  · cases hr
  · rename_i net hstep
    have ht := NetServer.step_timing hstep ha
    cases hr
    refine ⟨htimely, h.owned.step ho hstep, ?_, ?_⟩
    · intro fd c hs
      show (net.timers fd).isSome = true
      rw [ht.timers]
      rcases NetServer.step_serves h.owned.sound ho hstep hs with hs | ⟨hacc, -⟩
      · have hsome := h.served fd c hs
        cases s.net.refreshes action with
        | none => exact hsome
        | some r =>
          by_cases hfd : fd = r.2
          · rw [hfd]
            simp [NetServer.timersAfter]
          · simpa [NetServer.timersAfter, Table.insert_of_ne _ hfd] using hsome
      · rw [refreshes_of_accepts hacc]
        simp [NetServer.timersAfter]
    · intro fd a node htimer hm
      change net.timers fd = some a at htimer
      rw [ht.timers] at htimer
      cases hrefresh : s.net.refreshes action with
      | none =>
        rw [hrefresh] at htimer
        simp only [refreshTimer, hrefresh] at hm ⊢
        exact h.set fd a node htimer hm
      | some r =>
        obtain ⟨c, fd'⟩ := r
        rw [hrefresh] at htimer
        simp only [refreshTimer, hrefresh] at hm ⊢
        change s.net.timers.insert fd' c fd = some a at htimer
        change s.timerManager.map.insert (fd' : Int) _ fd = some node at hm
        by_cases hfd : fd = fd'
        · subst hfd
          rw [Table.insert_self] at htimer hm
          cases htimer
          cases hm
          exact ⟨now, List.mem_cons_self, rfl⟩
        · have hfd' : (fd : Int) ≠ fd' := by exact_mod_cast hfd
          rw [Table.insert_of_ne _ hfd] at htimer
          rw [Table.insert_of_ne _ hfd'] at hm
          obtain ⟨t, hmem, hexp⟩ := h.set fd a node htimer hm
          exact ⟨t, List.mem_cons_of_mem _ hmem, hexp⟩

theorem Prompt.pass (h : s.Prompt) (hnow : s.clock ≤ now) (hr : s.pass model now = some s') : s'.Prompt := by
  have htimely := h.timely.pass hnow hr
  unfold TimedServer.pass at hr
  split at hr
  · cases hr
  · rename_i node htop
    split at hr
    · rename_i hc
      obtain ⟨-, hrep⟩ := h.timely.callbacks node (MinHeap.top_mem htop)
      obtain ⟨-, hmap⟩ := s.timerManager.expireTop_once now hrep
      -- the map loses the node of one number at most
      have hset : ∀ fd node', (s.timerManager.expireTop now node).map fd = some node' →
          s.timerManager.map fd = some node' := by
        intro fd node' hm
        rw [hmap] at hm
        split at hm
        · exact (Table.of_erase_eq_some hm).2
        · exact hm
      dsimp only at hr
      split at hr
      · cases hr
        exact ⟨htimely, h.owned, h.served, fun fd a node' htimer hm => h.set fd a node' htimer (hset fd node' hm)⟩
      · rename_i fd hran
        obtain ⟨net, hstep, rfl⟩ := Option.map_eq_some_iff.mp hr
        obtain ⟨-, htimers, -⟩ := NetServer.step_expire hstep
        have horderly : s.net.Orderly (.expire fd) := ⟨fun _ hfd => (by cases hfd), fun _ ht => (by cases ht)⟩
        refine ⟨htimely, h.owned.step horderly hstep, ?_, ?_⟩
        · intro fd' c hs
          have hne : fd' ≠ fd := by
            rintro rfl
            exact NetServer.step_expire_serves h.owned.sound hstep hs
          rcases NetServer.step_serves h.owned.sound horderly hstep hs with hs | ⟨hacc, -⟩
          · show (net.timers fd').isSome = true
            rw [htimers, Table.erase_of_ne _ hne]
            exact h.served fd' c hs
          · cases hacc
        · intro fd' a node' htimer hm
          change net.timers fd' = some a at htimer
          rw [htimers] at htimer
          exact h.set fd' a node' (Table.of_erase_eq_some htimer).2 (hset fd' node' hm)
    · cases hr

theorem Prompt.step (h : s.Prompt) {action : Int × Action} (ho : s.Orderly action)
    (hr : step model s action = some s') : s'.Prompt := by
  obtain ⟨now, action⟩ := action
  simp only [TimedServer.step] at hr
  split at hr
  · cases hr
  · rename_i hnow
    split at hr
    · cases hr
    · rename_i a hne
      exact h.call (Int.not_lt.mp hnow) hne ho hr
    · exact h.pass (Int.not_lt.mp hnow) hr

end TimedServer

end ModularNetServer
