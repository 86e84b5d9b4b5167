import ModularNetServer.Net.NetServer
import ModularNetServer.Timer.TimerTable

/-!
# The server and its timer manager

`NetServer` lets a timer expire at any `tick`. Here the timers are those of a `TimerManager`: each
`refreshTimer` registers the callback `closeConnection(fd)`, and a tick takes the passes of its loop
one by one, so that workers may step in between. The clock is read once in a step and never goes back.

A history is kept beside the server: when each connection was accepted, and for whom, with which
number and when `refreshTimer` was called.
-/

namespace ModularNetServer

/-- The timeout that `refreshTimer` sets, in milliseconds. -/
def NetServer.timeoutMs : Int := 1000000

/-- The `refreshTimer` call that an action makes: the connection on whose behalf, and the number. -/
def NetServer.refreshes (s : NetServer) : NetServer.Action → Option (ConnId × Nat)
  | .handle (.accept (some fd)) => some (s.next, fd)
  | .work i _ =>
    match s.tasks[i]? with
    | none => none
    | some t =>
      match t.stage with
      | .refreshIfOpen => if (s.conn t.conn).isClosed then none else some (t.conn, t.fd)
      | .refreshTimer => some (t.conn, t.fd)
      | _ => none
  | _ => none

/-- A server, its `m_timer_manager`, whose callbacks are given by the number they close, the last clock
    reading, and the history. -/
structure TimedServer where
  net : NetServer
  timerManager : TimerManager Nat
  clock : Int
  accepted : Table ConnId Int
  refreshed : List (ConnId × Nat × Int)

namespace TimedServer

/-- The server before its first event. -/
def start (clock : Int) : TimedServer where
  net := NetServer.start
  timerManager := TimerManager.empty
  clock := clock
  accepted := Table.empty
  refreshed := []

/-- `refreshTimer`. -/
def refreshTimer (s : TimedServer) (now : Int) : Option (ConnId × Nat) → TimedServer
  | none => s
  | some (c, fd) =>
    { s with
      timerManager := s.timerManager.addTimer now fd fd NetServer.timeoutMs false
      refreshed := (c, fd, now) :: s.refreshed }

/-- An action of the server, with the timer that it sets. The history has an acceptance at the time of
    the `refreshTimer` that follows it. -/
def call (model : ActorModel) (s : TimedServer) (now : Int) (action : NetServer.Action) :
    Option TimedServer :=
  match NetServer.step model s.net action with
  | none => none
  | some net =>
    let s' := s.refreshTimer now (s.net.refreshes action)
    some { s' with
      net := net
      clock := now
      accepted :=
        match action.accepts with
        | none => s.accepted
        | some _ => s.accepted.insert s.net.next now }

/-- The number that the callback run by a pass of `tick` closes. -/
def ran (s : TimedServer) (now : Int) : Option Nat :=
  match s.timerManager.heap.top with
  | none => none
  | some timer =>
    if timer.isExpired now && s.timerManager.isCurrent timer then some timer.callback else none

/-- A pass of the loop of `tick`. -/
def pass (model : ActorModel) (s : TimedServer) (now : Int) : Option TimedServer :=
  match s.timerManager.heap.top with
  | none => none
  | some timer =>
    if s.net.ticking && timer.isExpired now then
      let s' := { s with timerManager := s.timerManager.expireTop now timer, clock := now }
      match s.ran now with
      | none => some s'
      | some fd => (NetServer.step model s.net (.expire fd)).map (fun net => { s' with net := net })
    else none

/-- What the main thread and the workers do. -/
inductive Action
  | call (action : NetServer.Action)
  | pass

/-- A step at a clock reading. Timers expire in the passes of `tick` and nowhere else. -/
def step (model : ActorModel) (s : TimedServer) (action : Int × Action) : Option TimedServer :=
  if action.1 < s.clock then none
  else
    match action.2 with
    | .call (.expire _) => none
    | .call a => s.call model action.1 a
    | .pass => s.pass model action.1

end TimedServer

end ModularNetServer
