import ModularNetServer.Http.ServedConn
import ModularNetServer.Http.Proofs.ProcessProofs

/-!
# The steps of a served connection

What a step can do, case by case, and when a `process` call may come before the connection is reset.
-/

namespace ModularNetServer

open Cxx

namespace ServedConn

variable {env : Environment} {mode : HttpConn.TrigMode} {s s' : ServedConn} {a : Action}

/-- What a step can do. -/
inductive Steps (env : Environment) (mode : HttpConn.TrigMode) (s : ServedConn) : Action → ServedConn → Prop
  | event (interest : Interest) (htask : s.task = none) (hepoll : s.epoll = some (some interest)) :
      Steps env mode s .event { s with
        epoll := some none
        task := if s.listed && !s.conn.isClosed then some interest.stage else none }
  | read (results : List HttpConn.RecvResult) (htask : s.task = some .read) :
      Steps env mode s (.work (.read results)) { s.setConn (s.conn.read mode results).2 with
        task := some (if (s.conn.read mode results).1 then .process else .closeConnection) }
  | process (w w' : World) (success : Bool) (c : HttpConn) (htask : s.task = some .process)
      (hprocess : HttpConn.process env w s.conn = .ok (success, w', c)) :
      Steps env mode s (.work (.process w)) { s.setConn c with
        task := some (if success then .writeCallback else .modFd .input) }
  | writeCallback (htask : s.task = some .writeCallback) :
      Steps env mode s (.work .none) { (if s.conn.isClosed then s else s.modFd .output) with task := none }
  | write (results : List SocketResult) (htask : s.task = some .write) :
      Steps env mode s (.work (.write results)) { s.setConn (s.conn.write results).2 with
        task := some (if (s.conn.write results).1 = .ok then
          (if (s.conn.write results).2.httpBase.keepAlive then .init else .closeConnection) else .writeAgain) }
  | writeAgain (results : List SocketResult) (htask : s.task = some .writeAgain) :
      Steps env mode s (.work (.write results)) { s.setConn (s.conn.write results).2 with
        task := some (if (s.conn.write results).1 = .again then .modFd .output else .closeConnection) }
  | init (htask : s.task = some .init) :
      Steps env mode s (.work .none) { s.setConn (s.conn.init s.fd) with task := some (.modFd .input) }
  | modFd (interest : Interest) (htask : s.task = some (.modFd interest)) :
      Steps env mode s (.work .none) { s.modFd interest with task := none }
  | closeConnection (htask : s.task = some .closeConnection) :
      Steps env mode s (.work .none) { s.closeConnection with task := none }
  | expire : Steps env mode s .expire s.closeConnection
  | shutdown : Steps env mode s .shutdown ({ s with listed := false }.setConn s.conn.closeConn)
  | destroy (hlisted : s.listed = false) (htask : s.task = none) :
      Steps env mode s .destroy { s.setConn s.conn.closeConn with destroyed := true }

theorem steps_of_step (h : step env mode s a = some s') : Steps env mode s a s' := by
  unfold step at h
  by_cases hdestroyed : s.destroyed = true
  · rw [if_pos hdestroyed] at h
    cases h
  rw [if_neg hdestroyed] at h
  cases a with
  | event =>
    simp only at h
    split at h
    · rename_i interest htask hepoll
      cases h
      exact .event interest htask hepoll
    · cases h
  | expire =>
    cases h
    exact .expire
  | shutdown =>
    cases h
    exact .shutdown
  | destroy =>
    simp only at h
    split_ifs at h with hrefs
    cases h
    simp only [Bool.or_eq_true, not_or, Bool.not_eq_true, Option.isSome_eq_false_iff, Option.isNone_iff_eq_none]
      at hrefs
    exact .destroy hrefs.1 hrefs.2
  | work answer =>
    simp only at h
    rcases htask : s.task with _ | stage
    · rw [htask] at h
      cases h
    · simp only [htask, Option.map_eq_some_iff] at h
      obtain ⟨⟨s1, stage'⟩, hrun, rfl⟩ := h
      unfold runStage at hrun
      split at hrun
      · cases hrun
        exact .read _ htask
      · split at hrun
        · cases hrun
        · rename_i success w' c hprocess
          cases hrun
          exact .process _ w' success c htask hprocess
      · cases hrun
        exact .writeCallback htask
      · cases hrun
        exact .write _ htask
      · cases hrun
        exact .writeAgain _ htask
      · cases hrun
        exact .init htask
      · cases hrun
        exact .modFd _ htask
      · cases hrun
        exact .closeConnection htask
      · cases hrun

/-! ## One-shot notification -/

/-- While a task works for the connection its descriptor is disarmed. -/
def OneShot (s : ServedConn) : Prop := s.task.isSome = true → s.epoll.join = none

theorem join_setConn (h : s.epoll.join = none) (c : HttpConn) : (s.setConn c).epoll.join = none := by
  unfold setConn
  dsimp only
  split_ifs
  · rfl
  · exact h

theorem join_closeConnection (h : s.epoll.join = none) : s.closeConnection.epoll.join = none := by
  unfold closeConnection
  split_ifs
  · exact @join_setConn { s with listed := false } h _
  · exact h

theorem oneShot_step (hs : s.OneShot) (h : step env mode s a = some s') : s'.OneShot := by
  intro htask'
  cases steps_of_step h with
  | event => rfl
  | read _ htask => exact join_setConn (hs (by rw [htask]; rfl)) _
  | process _ _ _ _ htask => exact join_setConn (hs (by rw [htask]; rfl)) _
  | writeCallback => cases htask'
  | write _ htask => exact join_setConn (hs (by rw [htask]; rfl)) _
  | writeAgain _ htask => exact join_setConn (hs (by rw [htask]; rfl)) _
  | init htask => exact join_setConn (hs (by rw [htask]; rfl)) (s.conn.init s.fd)
  | modFd => cases htask'
  | closeConnection => cases htask'
  | expire =>
    refine join_closeConnection (hs ?_)
    unfold closeConnection at htask'
    split_ifs at htask' <;> exact htask'
  | shutdown => exact @join_setConn { s with listed := false } (hs htask') _
  | destroy _ htask =>
    simp only [setConn, htask] at htask'
    cases htask'

/-! ## Waiting for a request -/

/-- A `process` call may come before the connection is reset. -/
def awaits (s : ServedConn) : Bool :=
  match s.task with
  | some .read => true
  | some .process => true
  | some (.modFd .input) => s.epoll.isSome
  | some _ => false
  | none => s.epoll = some (some .input)

/-- A closed connection whose task has ended waits for nothing. -/
theorem awaits_of_closed (htask : s.task = none) {c : HttpConn} (hc : c.isClosed = true) :
    (s.setConn c).awaits = false := by
  simp [awaits, setConn, htask, hc]

/-- How the connection has come to wait: it has been reset, or it waited before and has since received,
    been closed, or not found a response that can be sent. -/
inductive Awaited (env : Environment) (mode : HttpConn.TrigMode) (s : ServedConn) : Action → HttpConn → Prop
  | reset : Awaited env mode s (.work .none) (s.conn.init s.fd)
  | kept (a : Action) (ha : ∀ w, a ≠ .work (.process w)) (hawaits : s.awaits = true) :
      Awaited env mode s a s.conn
  | read (results : List HttpConn.RecvResult) (hawaits : s.awaits = true) :
      Awaited env mode s (.work (.read results)) (s.conn.read mode results).2
  | closed (a : Action) (ha : ∀ w, a ≠ .work (.process w)) (hawaits : s.awaits = true) :
      Awaited env mode s a s.conn.closeConn
  | process (w w' : World) (c : HttpConn) (hprocess : HttpConn.process env w s.conn = .ok (false, w', c))
      (hopen : c.isClosed = false) (hawaits : s.awaits = true) : Awaited env mode s (.work (.process w)) c

theorem awaited_of_step (hs : s.OneShot) (h : step env mode s a = some s') (hawaits : s'.awaits = true) :
    Awaited env mode s a s'.conn := by
  cases steps_of_step h with
  | event interest htask hepoll =>
    refine .kept _ nofun ?_
    cases interest with
    | input => simp [awaits, htask, hepoll]
    | output =>
      simp only [awaits, Interest.stage] at hawaits
      split_ifs at hawaits
      simp at hawaits
  | read results htask => exact .read results (by simp [awaits, htask])
  | process w w' success c htask hprocess =>
    cases success with
    | true => simp [awaits] at hawaits
    | false =>
      refine .process w w' c hprocess ?_ (by simp [awaits, htask])
      cases hclosed : c.isClosed with
      | false => rfl
      | true => simp [awaits, setConn, hclosed] at hawaits
  | writeCallback htask =>
    have hdisarmed := hs (by rw [htask]; rfl)
    simp only [awaits, decide_eq_true_eq] at hawaits
    split_ifs at hawaits
    · rw [hawaits] at hdisarmed
      cases hdisarmed
    · simp [modFd] at hawaits
  | write results htask =>
    simp only [awaits] at hawaits
    grind
  | writeAgain results htask =>
    simp only [awaits] at hawaits
    grind
  | init htask => exact .reset
  | modFd interest htask =>
    refine .kept _ nofun ?_
    cases interest with
    | input =>
      simp only [awaits, modFd, decide_eq_true_eq, Option.map_eq_some_iff] at hawaits
      obtain ⟨_, hepoll, -⟩ := hawaits
      simp [awaits, htask, hepoll]
    | output => simp [awaits, modFd] at hawaits
  | closeConnection htask =>
    have hdisarmed := join_closeConnection (hs (by rw [htask]; rfl))
    simp only [awaits, decide_eq_true_eq] at hawaits
    rw [hawaits] at hdisarmed
    cases hdisarmed
  | expire =>
    unfold closeConnection at hawaits ⊢
    split_ifs at hawaits ⊢
    · refine .closed _ nofun ?_
      unfold awaits at hawaits ⊢
      grind [setConn, HttpConn.isClosed_closeConn]
    · exact .kept _ nofun hawaits
  | shutdown =>
    refine .closed _ nofun ?_
    unfold awaits at hawaits ⊢
    grind [setConn, HttpConn.isClosed_closeConn]
  | destroy _ htask =>
    have hclosed := awaits_of_closed htask (HttpConn.isClosed_closeConn s.conn)
    exact absurd (hclosed.symm.trans hawaits) (by decide)

/-- **While a request is to come** the connection is as after a reset, but for what has been received, or
    its last response did not fit. -/
theorem awaiting_step (hs : s.OneShot) (hconn : s.awaits = true → s.conn.Awaiting)
    (h : step env mode s a = some s') (hawaits : s'.awaits = true) : s'.conn.Awaiting := by
  have hfrom := awaited_of_step hs h hawaits
  generalize s'.conn = c at hfrom
  cases hfrom with
  | reset => exact HttpConn.awaiting_init s.conn s.fd
  | kept _ _ hbefore => exact hconn hbefore
  | read results hbefore => exact (hconn hbefore).read mode results
  | closed _ _ hbefore => exact (hconn hbefore).closeConn
  | process w w' _ hprocess hopen hbefore =>
    rcases (hconn hbefore).process hprocess with hnext | hclosed
    · exact hnext
    · exact absurd (hopen.symm.trans hclosed) (by decide)

end ServedConn

end ModularNetServer
