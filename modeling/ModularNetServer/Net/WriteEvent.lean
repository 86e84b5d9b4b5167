import ModularNetServer.Net.NetServer

/-!
# One write event

`handleWriteEvent` and the task that it adds, taken by a worker that nothing comes between. The results of
the `write` calls are a sequence, of which each call takes the next.
-/

namespace ModularNetServer

/-- The stages that call `write`. -/
def Stage.writes : Stage → Bool
  | .write => true
  | .writeAgain => true
  | _ => false

namespace NetServer

/-- What a stage is answered after `n` calls of `write`. -/
def writeAnswer (results : Nat → WriteStatus) (keepAlive : Bool) (n : Nat) (stage : Stage) : Answer :=
  if stage.writes then .write (results n) keepAlive else .none

/-- The stages that a worker goes through, a given number of them at most, and the server after the last. -/
def worker (results : Nat → WriteStatus) (keepAlive : Bool) (c : ConnId) (fd : Nat) :
    Nat → Nat → Stage → NetServer → Option (List Stage × NetServer)
  | 0, _, _, _ => none
  | bound + 1, n, stage, s =>
    match s.runStage c fd stage (writeAnswer results keepAlive n stage) with
    | none => none
    | some (s, none) => some ([stage], s)
    | some (s, some next) =>
      (worker results keepAlive c fd bound (if stage.writes then n + 1 else n) next s).map
        fun (stages, s) => (stage :: stages, s)

/-- A write event: `handleWriteEvent` adds a task, and a worker takes it from the queue. The tasks of write
    events have at most four stages. -/
def writeEvent (model : ActorModel) (results : Nat → WriteStatus) (keepAlive : Bool) (fd : Nat)
    (s : NetServer) : Option (List Stage × NetServer) :=
  match s.handleEvent model (.output fd) .none with
  | none => none
  | some s' =>
    match s'.tasks.drop s.tasks.length with
    | [t] => worker results keepAlive t.conn t.fd 4 0 t.stage { s' with tasks := s.tasks }
    | _ => none

/-- What a write event is to do, by what the first `write` returns: there is no second one; `EPOLLOUT` is
    armed again after `AGAIN`; the connection is initialised and `EPOLLIN` armed after `OK` with keep-alive;
    it is closed after `ERROR`, or `OK` without keep-alive. -/
structure WriteOutcome (first : WriteStatus) (keepAlive : Bool) (fd : Nat) (stages : List Stage)
    (s : NetServer) : Prop where
  once : stages.countP Stage.writes = 1
  output : s.epoll fd = some (some .output) ↔ first = .again
  input : Stage.init ∈ stages ∧ s.epoll fd = some (some .input) ↔ first = .ok ∧ keepAlive = true
  close : s.users fd = none ↔ first = .error ∨ first = .ok ∧ keepAlive = false

end NetServer

end ModularNetServer
