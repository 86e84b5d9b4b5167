import ModularNetServer.Net.Proofs.NetServerProofs
import ModularNetServer.Net.WriteEvent

/-!
# What a write event does

The second condition of `handleWriteEvent` calls `write` once more, so that after anything but `OK` the task
goes by the result of a second attempt.
-/

namespace ModularNetServer

namespace NetServer

variable {s : NetServer} {c : ConnId} {fd : Nat} {results : Nat → WriteStatus} {keepAlive : Bool}

/-! ## The calls at the end of a task -/

theorem modFd_users (s : NetServer) (a : ConnId) (fd : Nat) (interest : Interest) :
    (s.modFd a fd interest).users = s.users := by
  unfold modFd
  split_ifs <;> rfl

/-- Where a number is registered it is armed again. -/
theorem modFd_epoll_self (a : ConnId) (h : (s.epoll fd).isSome = true) (interest : Interest) :
    (s.modFd a fd interest).epoll fd = some (some interest) := by
  unfold modFd
  rw [if_pos h]
  exact Table.insert_self _ _ _

theorem closeConn_epoll_none (a : ConnId) (h : s.epoll fd = none) : (s.closeConn a c).epoll fd = none := by
  unfold closeConn
  split
  · exact h
  · rename_i fd' x hclose
    show (s.epoll.erase fd') fd = none
    rw [Table.erase_apply, h, ite_self]

/-- A number that is taken off the list and out of epoll. -/
theorem removeFd_none (s : NetServer) (a : ConnId) (fd : Nat) :
    (s.removeFd a fd).epoll fd = none ∧ (s.removeFd a fd).users = s.users := by
  unfold removeFd
  split_ifs with h
  · exact ⟨Table.erase_self _ _, rfl⟩
  · exact ⟨by simpa using h, rfl⟩

/-- A connection that is closed is neither listed nor registered any more. -/
theorem closeConnection_open (a : ConnId) (hc : s.users fd = some c) (hopen : (s.conn c).isClosed = false) :
    (s.closeConnection a fd).users fd = none ∧ (s.closeConnection a fd).epoll fd = none := by
  have heq : s.closeConnection a fd = ((s.dropUser a fd).removeFd a fd).closeConn a c := by
    unfold closeConnection
    rw [hc]
    dsimp only
    rw [hopen]
    rfl
  obtain ⟨hepoll, husers⟩ := removeFd_none (s.dropUser a fd) a fd
  rw [heq, closeConn_users, husers]
  exact ⟨Table.erase_self _ _, closeConn_epoll_none a hepoll⟩

/-! ## The task -/

/-- After `OK` with keep-alive. -/
theorem worker_keeps (hok : (s.conn c).write (results 0) = .ok)
    (hkeep : (s.conn c).getKeepAlive keepAlive = true) :
    worker results keepAlive c fd 4 0 .write s = some ([.write, .init, .modFd .input, .refreshTimer],
      ((s.initConn c fd).modFd c fd .input).refreshTimer c fd) := by
  simp [worker, writeAnswer, Stage.writes, runStage, hok, hkeep]

/-- After `OK` without keep-alive. -/
theorem worker_closes (hok : (s.conn c).write (results 0) = .ok)
    (hkeep : (s.conn c).getKeepAlive keepAlive = false) :
    worker results keepAlive c fd 4 0 .write s =
      some ([.write, .closeConnection], s.closeConnection c fd) := by
  simp [worker, writeAnswer, Stage.writes, runStage, hok, hkeep]

/-- After another result there is a second call, and it alone decides what follows. -/
theorem worker_writes_again (hfirst : (s.conn c).write (results 0) ≠ .ok) :
    worker results keepAlive c fd 4 0 .write s =
      if (s.conn c).write (results 1) = .again then
        some ([.write, .writeAgain, .modFd .output, .refreshTimer],
          (s.modFd c fd .output).refreshTimer c fd)
      else some ([.write, .writeAgain, .closeConnection], s.closeConnection c fd) := by
  cases h0 : (s.conn c).write (results 0) with
  | ok => exact absurd h0 hfirst
  | again =>
    cases h1 : (s.conn c).write (results 1) <;> simp [worker, writeAnswer, Stage.writes, runStage, h0, h1]
  | error =>
    cases h1 : (s.conn c).write (results 1) <;> simp [worker, writeAnswer, Stage.writes, runStage, h0, h1]

/-- The event adds the task of the connection, in both models. -/
theorem writeEvent_eq (model : ActorModel) (results : Nat → WriteStatus) (keepAlive : Bool)
    (hc : s.users fd = some c) (hopen : (s.conn c).isClosed = false) :
    writeEvent model results keepAlive fd s = worker results keepAlive c fd 4 0 .write s := by
  have hevent : s.handleEvent model (.output fd) .none = some (s.addTask ⟨c, fd, .write⟩) := by
    simp [handleEvent, handleWriteEvent, hc, hopen]
  have hadded : (s.addTask ⟨c, fd, .write⟩).tasks.drop s.tasks.length = [⟨c, fd, .write⟩] := List.drop_left
  unfold writeEvent
  rw [hevent]
  dsimp only
  rw [hadded]
  rfl

/-! ## The outcome -/

/-- The branches that end a write event: where the first call returned `OK` they do what the event is to
    do. -/
theorem outcome_ok (hc : s.users fd = some c) (hopen : (s.conn c).isClosed = false)
    (hdisarmed : s.epoll fd = some none) (hok : (s.conn c).write (results 0) = .ok) :
    ∃ stages s', worker results keepAlive c fd 4 0 .write s = some (stages, s') ∧
      WriteOutcome .ok ((s.conn c).getKeepAlive keepAlive) fd stages s' := by
  cases hkeep : (s.conn c).getKeepAlive keepAlive with
  | true =>
    have hepoll : (((s.initConn c fd).modFd c fd .input).refreshTimer c fd).epoll fd = some (some .input) :=
      modFd_epoll_self c (by rw [show (s.initConn c fd).epoll = s.epoll from rfl, hdisarmed]; rfl) .input
    have husers : (((s.initConn c fd).modFd c fd .input).refreshTimer c fd).users fd = some c := by
      rw [← hc]
      exact congrFun (modFd_users _ _ _ _) fd
    refine ⟨_, _, worker_keeps hok hkeep, by decide, ?_, ?_, ?_⟩
    · simp [hepoll]
    · simp [hepoll]
    · simp [husers]
  | false =>
    obtain ⟨husers, hepoll⟩ := closeConnection_open c hc hopen
    refine ⟨_, _, worker_closes hok hkeep, by decide, ?_, ?_, ?_⟩
    · simp [hepoll]
    · simp [hepoll]
    · simp [husers]

/-- A write event makes one attempt and does what the result of it asks for exactly when the first call of
    `write` returns `OK`; after anything else there is a second attempt. -/
theorem writeEvent_outcome_iff (model : ActorModel) (results : Nat → WriteStatus) (keepAlive : Bool)
    (hc : s.users fd = some c) (hopen : (s.conn c).isClosed = false) (hdisarmed : s.epoll fd = some none) :
    ∃ stages s', writeEvent model results keepAlive fd s = some (stages, s') ∧
      (WriteOutcome ((s.conn c).write (results 0)) ((s.conn c).getKeepAlive keepAlive) fd stages s' ↔
        (s.conn c).write (results 0) = .ok) := by
  rw [writeEvent_eq model results keepAlive hc hopen]
  by_cases hfirst : (s.conn c).write (results 0) = .ok
  · obtain ⟨stages, s', hrun, houtcome⟩ := outcome_ok hc hopen hdisarmed hfirst
    refine ⟨stages, s', hrun, ?_⟩
    rw [hfirst]
    exact iff_of_true houtcome rfl
  · rw [worker_writes_again hfirst]
    split_ifs
    all_goals
      refine ⟨_, _, rfl, iff_of_false ?_ hfirst⟩
      intro houtcome
      exact absurd houtcome.once (by decide)

/-- A server with one connection, of which `epoll_wait` has reported that it can be written to. -/
def reported (kind : ConnKind) : NetServer := (start.handleNewConnection kind 5).disarm [5]

theorem writeEvent_outcome_iff_ok :
    ∃ stages s', writeEvent .Reactor (fun _ => .ok) true 5 (reported .http) = some (stages, s') ∧
      (WriteOutcome (((reported .http).conn 0).write .ok) (((reported .http).conn 0).getKeepAlive true) 5
          stages s' ↔ ((reported .http).conn 0).write .ok = .ok) :=
  @writeEvent_outcome_iff (reported .http) 0 5 .Reactor (fun _ => .ok) true (by decide) (by decide) (by decide)

/-- The socket is full at the first attempt and takes the rest at the second: the connection is closed
    although it was to be kept. -/
theorem second_attempt_closes :
    ∃ stages s', writeEvent .Reactor (fun n => if n = 0 then .again else .ok) true 5 (reported .http) =
        some (stages, s') ∧
      ¬ WriteOutcome .again true 5 stages s' := by
  refine ⟨[.write, .writeAgain, .closeConnection], (reported .http).closeConnection 0 5, ?_, ?_⟩
  · rw [writeEvent_eq .Reactor _ _ (show (reported .http).users 5 = some 0 by decide) (by decide),
      worker_writes_again (by decide), if_neg (by decide)]
  · intro houtcome
    exact absurd (houtcome.output.mpr rfl) (by decide)

end NetServer

end ModularNetServer
