import ModularNetServer.Net.TimedServer
import ModularNetServer.Net.Proofs.NetServerProofs
import ModularNetServer.Timer.Proofs.TimerManagerProofs

/-!
# The idle timeout

Timers are keyed by numbers and are never cancelled, so nodes set for earlier connections with the same
number stay in the heap. The invariant `Timely` says that the node that the map holds for a number was
made after every call of `refreshTimer` with that number, and that a connection in `m_users` had its
timer set when it was accepted.
-/

namespace ModularNetServer

namespace NetServer

variable {s s' : NetServer} {a c c' : ConnId} {fd fd' : Nat}

/-! ## Timers and entries of `m_users` -/

/-- A call that sets no timer and makes no entry of `m_users`. -/
structure Quiet (s s' : NetServer) : Prop where
  users : ∀ fd c, s'.users fd = some c → s.users fd = some c
  timers : s'.timers = s.timers
  next : s'.next = s.next

theorem Quiet.refl (s : NetServer) : Quiet s s := ⟨fun _ _ h => h, rfl, rfl⟩

theorem Touches.quiet (h : Touches s a fd s') : Quiet s s' := by
  rw [h.eq]
  exact ⟨fun _ _ h => h, rfl, rfl⟩

theorem closeConn_quiet (s : NetServer) (a c : ConnId) : Quiet s (s.closeConn a c) := by
  refine ⟨?_, ?_, closeConn_next s a c⟩
  · intro fd c' hu
    rwa [closeConn_users] at hu
  · unfold closeConn
    split <;> rfl

theorem closeConnection_quiet (s : NetServer) (a : ConnId) (fd : Nat) :
    Quiet s (s.closeConnection a fd) := by
  rcases closeConnection_cases s a fd with heq | ⟨c, -, -, heq⟩
  · rw [heq]
    exact .refl s
  · have hclose := closeConn_quiet ((s.dropUser a fd).removeFd a fd) a c
    have hremove := (removeFd_touches (s.dropUser a fd) a fd).quiet
    rw [heq]
    refine ⟨?_, ?_, ?_⟩
    · intro fd' c' hu
      exact (Table.of_erase_eq_some (hremove.users fd' c' (hclose.users fd' c' hu))).2
    · rw [hclose.timers, hremove.timers]
      rfl
    · rw [hclose.next, hremove.next]
      rfl

theorem writeCallback_quiet (s : NetServer) (c : ConnId) : Quiet s (s.writeCallback c) := by
  unfold writeCallback
  split
  · exact .refl s
  · split
    · exact .refl s
    · rename_i fd _
      exact (modFd_touches s c fd .output).quiet

/-- A step of a task sets the timer that `refreshes` names, or none. -/
theorem runStage_timers {next : Option Stage} {st : Stage} {answer : Answer}
    (hr : s.runStage c fd st answer = some (s', next)) :
    (st = .refreshTimer ∨ st = .refreshIfOpen ∧ (s.conn c).isClosed = false) ∧
        s' = s.refreshTimer c fd ∨
      (st ≠ .refreshTimer ∧ (st = .refreshIfOpen → (s.conn c).isClosed = true)) ∧ Quiet s s' := by
  unfold runStage at hr
  split at hr
  · cases hr
    exact .inr ⟨by simp, .refl s⟩
  · split at hr
    · cases hr
      exact .inr ⟨by simp, .refl s⟩
    · cases hr
      exact .inr ⟨by simp, .refl s⟩
    · cases hr
      exact .inr ⟨by simp, closeConn_quiet s c c⟩
  · cases hr
    exact .inr ⟨by simp, writeCallback_quiet s c⟩
  · cases hr
    exact .inr ⟨by simp, (modFd_touches s c fd .input).quiet⟩
  · cases hr
    split
    · rename_i hclosed
      exact .inr ⟨⟨by simp, fun _ => hclosed⟩, .refl s⟩
    · rename_i hopen
      exact .inl ⟨.inr ⟨rfl, by simpa using hopen⟩, rfl⟩
  · split at hr <;> cases hr <;> exact .inr ⟨by simp, .refl s⟩
  · split at hr <;> cases hr <;> exact .inr ⟨by simp, .refl s⟩
  · cases hr
    exact .inr ⟨by simp, ⟨fun _ _ h => h, rfl, rfl⟩⟩
  · rename_i interest
    cases hr
    exact .inr ⟨by simp, (modFd_touches s c fd interest).quiet⟩
  · cases hr
    exact .inl ⟨.inl rfl, rfl⟩
  · cases hr
    exact .inr ⟨by simp, closeConnection_quiet s c fd⟩
  · cases hr

/-- The timers after a call of `refreshTimer`, if there is one. -/
def timersAfter (s : NetServer) : Option (ConnId × Nat) → Table Nat ConnId
  | none => s.timers
  | some (c, fd) => s.timers.insert fd c

/-- What an action does to the timers and the entries of `m_users`: it sets the timer that `refreshes`
    names, and it makes an entry only for a connection that it accepts. -/
structure Timing (s : NetServer) (action : Action) (s' : NetServer) : Prop where
  users : ∀ fd c, s'.users fd = some c →
    s.users fd = some c ∨ action.accepts = some fd ∧ c = s.next
  timers : s'.timers = s.timersAfter (s.refreshes action)
  next : s'.next = if action.accepts.isSome then s.next + 1 else s.next

theorem Quiet.timing {action : Action} (h : Quiet s s') (hr : s.refreshes action = none)
    (ha : action.accepts = none) : Timing s action s' := by
  refine ⟨fun fd c hu => .inl (h.users fd c hu), ?_, ?_⟩
  · rw [hr]
    exact h.timers
  · rw [ha]
    exact h.next

/-- The events of a connection, and signals, set no timer. -/
theorem handleEvent_timing {model : ActorModel} {e : Event} {answer : Answer}
    (hr : s.handleEvent model e answer = some s') : Timing s (.handle answer) s' := by
  unfold handleEvent at hr
  split at hr
  · cases hr
    exact (Quiet.refl s).timing rfl rfl
  · rename_i kind fd
    split at hr
    · cases hr
      refine ⟨?_, rfl, rfl⟩
      intro fd' c hu
      change s.users.insert fd s.next fd' = some c at hu
      by_cases hfd : fd' = fd
      · subst hfd
        rw [Table.insert_self] at hu
        exact .inr ⟨rfl, (Option.some.inj hu).symm⟩
      · rw [Table.insert_of_ne _ hfd] at hu
        exact .inl hu
    · cases hr
  · cases hr
    exact Quiet.timing ⟨fun _ _ h => h, rfl, rfl⟩ rfl rfl
  · rename_i fd ok
    cases hr
    refine Quiet.timing ?_ rfl rfl
    unfold handleReadEvent
    split
    · exact .refl s
    · split
      · exact .refl s
      · cases model with
        | Reactor => exact ⟨fun _ _ h => h, rfl, rfl⟩
        | Proactor =>
          dsimp only
          split
          · exact ⟨fun _ _ h => h, rfl, rfl⟩
          · exact closeConnection_quiet s _ fd
  · cases hr
    refine Quiet.timing ?_ rfl rfl
    unfold handleWriteEvent
    split
    · exact .refl s
    · split
      · exact .refl s
      · exact ⟨fun _ _ h => h, rfl, rfl⟩
  · cases hr
    exact (Quiet.refl s).timing rfl rfl
  · cases hr

theorem work_timing {i : Nat} {answer : Answer} (hr : s.work i answer = some s') :
    Timing s (.work i answer) s' := by
  unfold work at hr
  split at hr
  · cases hr
  · rename_i t ht
    split at hr
    · cases hr
    · rename_i s₁ next hstage
      have hset : Quiet s₁ (s₁.setTask i t next) := by
        cases next with
        | none => exact ⟨fun _ _ h => h, rfl, rfl⟩
        | some stage => exact ⟨fun _ _ h => h, rfl, rfl⟩
      cases hr
      rcases runStage_timers hstage with ⟨hset', rfl⟩ | ⟨⟨hne, hclosed⟩, hq⟩
      · have hrefresh : s.refreshes (.work i answer) = some (t.conn, t.fd) := by
          rcases hset' with hst | ⟨hst, hopen⟩
          · simp [refreshes, ht, hst]
          · simp [refreshes, ht, hst, hopen]
        refine ⟨fun fd c hu => .inl (hset.users fd c hu), ?_, hset.next⟩
        rw [hrefresh]
        exact hset.timers
      · have hrefresh : s.refreshes (.work i answer) = none := by
          simp only [refreshes, ht]
          split
          · rename_i hst
            rw [if_pos (hclosed hst)]
          · rename_i hst
            exact absurd hst hne
          · rfl
        refine Quiet.timing ⟨fun fd c hu => hq.users fd c (hset.users fd c hu), ?_, ?_⟩ hrefresh rfl
        · rw [hset.timers, hq.timers]
        · rw [hset.next, hq.next]

/-- Every action but the expiry of a timer. -/
theorem step_timing {model : ActorModel} {action : Action} (hr : step model s action = some s')
    (ha : ∀ fd, action ≠ .expire fd) : Timing s action s' := by
  cases action with
  | epollWait events =>
    simp only [step] at hr
    split at hr
    · cases hr
      exact Quiet.timing ⟨fun _ _ h => h, rfl, rfl⟩ rfl rfl
    · cases hr
  | expire fd => exact absurd rfl (ha fd)
  | handle answer =>
    simp only [step] at hr
    split at hr
    · cases hr
    · have ht := handleEvent_timing hr
      exact ⟨ht.users, ht.timers, ht.next⟩
  | work i answer => exact work_timing hr
  | destroy c =>
    simp only [step] at hr
    split at hr
    · cases hr
      have hq := closeConn_quiet s c c
      exact Quiet.timing ⟨hq.users, hq.timers, hq.next⟩ rfl rfl
    · cases hr
  | shutdownConn fd =>
    simp only [step] at hr
    split at hr
    · cases hr
    · rename_i c _
      split at hr
      · cases hr
      · cases hr
        have hq := closeConn_quiet s c c
        refine Quiet.timing ⟨?_, hq.timers, hq.next⟩ rfl rfl
        intro fd' c' hu
        exact hq.users fd' c' (Table.of_erase_eq_some hu).2

/-- The expiry of a timer. -/
theorem step_expire {model : ActorModel} (hr : step model s (.expire fd) = some s') :
    (∀ fd' c, s'.users fd' = some c → s.users fd' = some c) ∧ s'.timers = s.timers.erase fd ∧
      s'.next = s.next := by
  simp only [step] at hr
  split at hr
  · cases hr
  · rename_i c _
    split at hr
    · cases hr
      have hq := closeConnection_quiet s c fd
      exact ⟨hq.users, by simp only [hq.timers], hq.next⟩
    · cases hr

end NetServer

/-! ## Passes of a tick -/

namespace TimerManager

variable {C : Type*} {m : TimerManager C} {timer : TimerNode C}

/-- What is left when an expired timer that does not repeat has been dealt with. -/
theorem expireTop_once (m : TimerManager C) (now : Int) (hr : timer.isRepeat = false) :
    (m.expireTop now timer).heap = m.heap.pop ∧
      (m.expireTop now timer).map = if m.isCurrent timer then m.map.erase timer.fd else m.map := by
  unfold expireTop
  rw [hr]
  split
  · exact ⟨rfl, rfl⟩
  · exact ⟨rfl, rfl⟩

end TimerManager

namespace TimedServer

variable {s s' : TimedServer} {now : Int} {model : ActorModel} {c : ConnId} {fd : Nat}

/-- The timer manager beside the timers of the server and the history: the node that the map holds for a
    number is later than every call of `refreshTimer` with that number. -/
structure Timers (s : TimedServer) : Prop where
  manager : s.timerManager.Inv
  callbacks : ∀ t ∈ s.timerManager.heap.toList, t.fd = t.callback ∧ t.isRepeat = false
  timers : ∀ fd, (s.net.timers fd).isSome = (s.timerManager.map fd).isSome
  past : ∀ c fd t, (c, fd, t) ∈ s.refreshed → t ≤ s.clock
  latest : ∀ c fd t node, (c, fd, t) ∈ s.refreshed → s.timerManager.map fd = some node →
    TimerNode.after t NetServer.timeoutMs ≤ node.expire

/-- What every step keeps. -/
structure Timely (s : TimedServer) : Prop extends Timers s where
  made : ∀ c t, s.accepted c = some t → c < s.net.next
  users : ∀ fd c, s.net.users fd = some c → ∃ t, s.accepted c = some t ∧ (c, fd, t) ∈ s.refreshed

theorem timely_start (clock : Int) : Timely (start clock) where
  manager := TimerManager.inv_empty
  callbacks := fun _ h => absurd h List.not_mem_nil
  timers := fun _ => rfl
  past := fun _ _ _ h => absurd h List.not_mem_nil
  latest := fun _ _ _ _ h => absurd h List.not_mem_nil
  made := fun _ _ h => by cases h
  users := fun _ _ h => by cases h

/-- The timer that is set, if any, on a server whose timers have it. -/
theorem Timers.refreshTimer (h : s.Timers) (hnow : s.clock ≤ now) {r : Option (ConnId × Nat)}
    {net : NetServer} {accepted : Table ConnId Int} (htimers : net.timers = s.net.timersAfter r) :
    ({ s.refreshTimer now r with net := net, clock := now, accepted := accepted } :
      TimedServer).Timers := by
  cases r with
  | none =>
    refine ⟨h.manager, h.callbacks, ?_, ?_, h.latest⟩
    · intro fd
      show (net.timers fd).isSome = _
      rw [htimers]
      exact h.timers fd
    · intro c fd t ht
      exact Int.le_trans (h.past c fd t ht) hnow
  | some r =>
    obtain ⟨c, fd⟩ := r
    have hpast : ∀ c' fd' t, (c', fd', t) ∈ (c, fd, now) :: s.refreshed → t ≤ now := by
      intro c' fd' t ht
      rcases List.mem_cons.mp ht with heq | ht
      · cases heq
        exact Int.le_refl _
      · exact Int.le_trans (h.past c' fd' t ht) hnow
    refine ⟨h.manager.addTimer now fd fd (by simp), ?_, ?_, hpast, ?_⟩
    · intro node hn
      rcases List.mem_cons.mp ((MinHeap.push_perm _ _).subset hn) with rfl | hn
      · exact ⟨rfl, rfl⟩
      · exact h.callbacks node hn
    · intro fd'
      rw [htimers]
      show (s.net.timers.insert fd c fd').isSome =
        (s.timerManager.map.insert (fd : Int) _ fd').isSome
      by_cases hfd : fd' = fd
      · simp [hfd]
      · have hfd' : (fd' : Int) ≠ fd := by exact_mod_cast hfd
        rw [Table.insert_of_ne _ hfd, Table.insert_of_ne _ hfd']
        exact h.timers fd'
    · intro c' fd' t node ht hm
      change s.timerManager.map.insert (fd : Int) _ fd' = some node at hm
      by_cases hfd : (fd' : Int) = fd
      · -- the new node is made after every call so far
        rw [hfd, Table.insert_self] at hm
        cases hm
        have hle := hpast c' fd' t ht
        simp only [TimerNode.make, TimerNode.after]
        omega
      · rw [Table.insert_of_ne _ hfd] at hm
        rcases List.mem_cons.mp ht with heq | ht
        · cases heq
          exact absurd rfl hfd
        · exact h.latest c' fd' t node ht hm

theorem refreshes_of_accepts {n : NetServer} {action : NetServer.Action}
    (h : action.accepts = some fd) : n.refreshes action = some (n.next, fd) := by
  unfold NetServer.Action.accepts at h
  split at h
  · subst h
    rfl
  · cases h

theorem mem_refreshTimer {e : ConnId × Nat × Int} (he : e ∈ s.refreshed) (r : Option (ConnId × Nat)) :
    e ∈ (s.refreshTimer now r).refreshed := by
  cases r with
  | none => exact he
  | some r => exact List.mem_cons_of_mem _ he

theorem Timely.call (h : s.Timely) (hnow : s.clock ≤ now) {action : NetServer.Action}
    (ha : ∀ fd, action ≠ .expire fd) (hr : s.call model now action = some s') : s'.Timely := by
  unfold TimedServer.call at hr
  split at hr
  · cases hr
  · rename_i net hstep
    have ht := NetServer.step_timing hstep ha
    cases hr
    refine ⟨h.toTimers.refreshTimer hnow ht.timers, ?_, ?_⟩
    · intro c t hc
      show c < net.next
      rw [ht.next]
      cases hacc : action.accepts with
      | none =>
        rw [hacc] at hc
        exact h.made c t hc
      | some fd =>
        rw [hacc] at hc
        by_cases hcn : c = s.net.next
        · subst hcn
          exact Nat.lt_succ_self _
        · exact Nat.lt_succ_of_lt (h.made c t ((Table.insert_of_ne _ hcn _).symm.trans hc))
    · intro fd c hu
      rcases ht.users fd c hu with hu | ⟨hacc, rfl⟩
      · obtain ⟨t, hat, hmem⟩ := h.users fd c hu
        refine ⟨t, ?_, mem_refreshTimer hmem _⟩
        cases hacc : action.accepts with
        | none => exact hat
        | some fd' =>
          have hne : c ≠ s.net.next := Nat.ne_of_lt (h.made c t hat)
          exact (Table.insert_of_ne _ hne _).trans hat
      · refine ⟨now, ?_, ?_⟩
        · rw [hacc]
          exact Table.insert_self _ _ _
        · rw [refreshes_of_accepts hacc]
          exact List.mem_cons_self

/-! ## The passes of a tick -/

/-- A pass runs the callback of an expired node that the map holds. -/
theorem ran_spec (h : s.Timers) (hran : s.ran now = some fd) :
    ∃ node, s.timerManager.heap.top = some node ∧ s.timerManager.isCurrent node = true ∧
      s.timerManager.map fd = some node ∧ node.expire ≤ now := by
  unfold ran at hran
  split at hran
  · cases hran
  · rename_i node htop
    split at hran
    · rename_i hc
      obtain ⟨hexp, hcur⟩ := Bool.and_eq_true_iff.mp hc
      cases hran
      have hmem := MinHeap.top_mem htop
      have hmap := (h.manager.isCurrent_iff hmem).mp hcur
      rw [(h.callbacks node hmem).1] at hmap
      exact ⟨node, htop, hcur, hmap, by simpa [TimerNode.isExpired] using hexp⟩
    · cases hran

/-- The timer that has expired is dropped, on a server whose timers then are those of the map. -/
theorem Timers.expireTop (h : s.Timers) (hnow : s.clock ≤ now) {node : TimerNode Nat}
    (htop : s.timerManager.heap.top = some node) (hexp : node.expire ≤ now) {net : NetServer}
    (htimers : ∀ fd, (net.timers fd).isSome = ((s.timerManager.expireTop now node).map fd).isSome) :
    ({ s with
      net := net
      timerManager := s.timerManager.expireTop now node
      clock := now } : TimedServer).Timers := by
  obtain ⟨-, hrep⟩ := h.callbacks node (MinHeap.top_mem htop)
  obtain ⟨hheap, hmap⟩ := s.timerManager.expireTop_once now hrep
  refine ⟨h.manager.expireTop htop hexp, ?_, htimers, ?_, ?_⟩
  · intro t ht
    change t ∈ (s.timerManager.expireTop now node).heap.toList at ht
    rw [hheap] at ht
    exact h.callbacks t ((TimerManager.mem_pop h.manager.nodup htop).1 t ht).1
  · intro c fd t ht
    exact Int.le_trans (h.past c fd t ht) hnow
  · intro c fd t n ht hm
    change (s.timerManager.expireTop now node).map fd = some n at hm
    rw [hmap] at hm
    split at hm
    · exact h.latest c fd t n ht (Table.of_erase_eq_some hm).2
    · exact h.latest c fd t n ht hm

theorem Timely.pass (h : s.Timely) (hnow : s.clock ≤ now) (hr : s.pass model now = some s') :
    s'.Timely := by
  unfold TimedServer.pass at hr
  split at hr
  · cases hr
  · rename_i node htop
    split at hr
    · rename_i hc
      have hexp : node.expire ≤ now := by simpa [TimerNode.isExpired] using (Bool.and_eq_true_iff.mp hc).2
      obtain ⟨-, hrep⟩ := h.callbacks node (MinHeap.top_mem htop)
      obtain ⟨-, hmap⟩ := s.timerManager.expireTop_once now hrep
      dsimp only at hr
      split at hr
      · -- a node that has been superseded
        rename_i hran
        cases hr
        have hcur : s.timerManager.isCurrent node = false := by
          unfold ran at hran
          rw [htop] at hran
          simpa [TimerNode.isExpired, hexp] using hran
        refine ⟨h.toTimers.expireTop hnow htop hexp ?_, h.made, h.users⟩
        intro fd
        rw [hmap, hcur]
        exact h.timers fd
      · rename_i fd hran
        obtain ⟨net, hstep, rfl⟩ := Option.map_eq_some_iff.mp hr
        obtain ⟨husers, htimers, hnext⟩ := NetServer.step_expire hstep
        obtain ⟨node', htop', hcur, hmap', -⟩ := ran_spec h.toTimers hran
        rw [htop] at htop'
        cases htop'
        refine ⟨h.toTimers.expireTop hnow htop hexp ?_, ?_, ?_⟩
        · intro fd'
          rw [hmap, hcur, htimers, if_pos rfl, (h.manager.mapped _ _ hmap').2]
          by_cases hfd : fd' = fd
          · simp [hfd]
          · have hfd' : (fd' : Int) ≠ fd := by exact_mod_cast hfd
            rw [Table.erase_of_ne _ hfd, Table.erase_of_ne _ hfd']
            exact h.timers fd'
        · intro c t ht
          show c < net.next
          rw [hnext]
          exact h.made c t ht
        · intro fd' c hu
          exact h.users fd' c (husers fd' c hu)
    · cases hr

theorem Timely.step (h : s.Timely) {action : Int × Action} (hr : step model s action = some s') :
    s.clock ≤ action.1 ∧ s'.Timely := by
  obtain ⟨now, action⟩ := action
  simp only [TimedServer.step] at hr
  split at hr
  · cases hr
  · rename_i hnow
    refine ⟨Int.not_lt.mp hnow, ?_⟩
    split at hr
    · cases hr
    · rename_i a hne
      exact h.call (Int.not_lt.mp hnow) hne hr
    · exact h.pass (Int.not_lt.mp hnow) hr

/-- The idle timeout is never early: in every run, a pass of `tick` runs `closeConnection(fd)` while
    `m_users[fd]` is some connection only if the timeout has passed since that connection was accepted
    and since every call of `refreshTimer(fd)` for it. -/
theorem run_timeout_not_early (model : ActorModel) (clock : Int) (actions : List (Int × Action))
    (s : TimedServer) (hr : Transition.run (step model) (start clock) actions = some s) (now : Int)
    (fd : Nat) (hran : s.ran now = some fd) (c : ConnId) (hu : s.net.users fd = some c) :
    (∃ t, s.accepted c = some t ∧ TimerNode.after t 1000000 ≤ now) ∧
      ∀ t, (c, fd, t) ∈ s.refreshed → TimerNode.after t 1000000 ≤ now := by
  have h : s.Timely := Transition.run_invariant_of_step (fun _ _ _ hi ha => (hi.step ha).2)
    (timely_start clock) hr
  obtain ⟨node, -, -, hmap, hexp⟩ := ran_spec h.toTimers hran
  have hrefreshed : ∀ t, (c, fd, t) ∈ s.refreshed → TimerNode.after t 1000000 ≤ now :=
    fun t ht => Int.le_trans (h.latest c fd t node ht hmap) hexp
  obtain ⟨t, hacc, hmem⟩ := h.users fd c hu
  exact ⟨⟨t, hacc, hrefreshed t hmem⟩, hrefreshed⟩

/-- A connection times out while a task of it is about to refresh its timer, its number is accepted
    again, and the task goes on: the second connection times out later than without it. -/
def lateRefresh : List (Int × Action) :=
  [(0, .call (.epollWait [.connection .http])), (0, .call (.handle (.accept (some 5)))),
    (1, .call (.epollWait [.input 5])), (1, .call (.handle (.read true))),
    (1, .call (.work 0 (.process .done))), (1, .call (.work 0 .none)), (2, .call (.work 0 .none)),
    (3, .call (.epollWait [.output 5])), (3, .call (.handle .none)),
    (3, .call (.work 0 (.write .ok true))), (3, .call (.work 0 .none)),
    (1000000000002, .call (.epollWait [.connection .http])), (1000000000002, .pass),
    (1000000000002, .pass), (1000000000003, .call (.handle (.accept (some 5)))),
    (1000000000004, .call (.work 0 .none)), (1000000000004, .call (.work 0 .none)),
    (2000000000004, .call (.epollWait [])), (2000000000004, .pass)]

theorem run_timeout_not_early_late :
    ∃ s, Transition.run (step .Proactor) (start 0) lateRefresh = some s ∧
      s.ran 2000000000004 = some 5 ∧ s.net.users 5 = some 1 ∧
      (∃ t, s.accepted 1 = some t ∧ TimerNode.after t 1000000 ≤ 2000000000004) ∧
        ∀ t, (1, 5, t) ∈ s.refreshed → TimerNode.after t 1000000 ≤ 2000000000004 :=
  ⟨_, rfl, rfl, rfl, run_timeout_not_early .Proactor 0 lateRefresh _ rfl 2000000000004 5 rfl 1 rfl⟩

end TimedServer

end ModularNetServer
