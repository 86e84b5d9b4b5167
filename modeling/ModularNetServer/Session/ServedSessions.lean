import ModularNetServer.Library.Transition
import ModularNetServer.Net.TimedServer
import ModularNetServer.Session.SessionManager

/-!
# The sessions of a running server

Calls of the session manager, by requests and by other code, between the actions of a server whose
`eventLoop` ticks its own timers. The clock never goes back. Beside them a history is kept: a ledger of
the sessions by what the calls alone say, and what the calls that look a session up have found.
-/

namespace ModularNetServer

open Cxx

/-- A call on the sessions, with the clock readings that it takes or, where it takes none, the time at
    which it is made. A request makes the calls of `HttpRequest::parseAuthContext` and of
    `HttpConn::refreshSession`. -/
inductive SessionCall
  | createSession (now1 now2 now3 : Int) (tid : Str) (timeoutMs : Int)
  | set (id key value : Str)
  | get (now : Int) (id key : Str)
  | sessionExists (now : Int) (id : Str)
  | isSessionIdValid (now : Int) (id : Str)
  | refresh (now1 now2 : Int) (id : Str) (timeoutMs : Int)
  | removeSession (id : Str)
  | parseAuthContext (now : Int) (id : Str)
  | refreshSession (now1 now2 : Int) (id : Str)

/-- The times of a call. -/
def SessionCall.times : SessionCall → List Int
  | createSession now1 now2 now3 _ _ => [now1, now2, now3]
  | set _ _ _ => []
  | get now _ _ => [now]
  | sessionExists now _ => [now]
  | isSessionIdValid now _ => [now]
  | refresh now1 now2 _ _ => [now1, now2]
  | removeSession _ => []
  | parseAuthContext now _ => [now]
  | refreshSession now1 now2 _ => [now1, now2]

/-- The manager after a call. -/
def SessionManager.call (m : SessionManager) : SessionCall → SessionManager
  | .createSession now1 now2 now3 tid timeoutMs => (m.createSession now1 now2 now3 tid timeoutMs).2
  | .set id key value => m.set id key value
  | .get _ _ _ => m
  | .sessionExists _ _ => m
  | .isSessionIdValid _ _ => m
  | .refresh now1 now2 id timeoutMs => m.refresh now1 now2 id timeoutMs
  | .removeSession id => m.removeSession id
  | .parseAuthContext now id =>
    if m.isSessionIdValid id then (m.isSessionIdExpired now id).2 else m
  | .refreshSession now1 now2 id =>
    if id = [] then m else if m.sessionExists id then m.refresh now1 now2 id 1800000 else m

/-! ## The history -/

/-- What the calls say about a session that has been created and not removed since. -/
structure SessionRecord where
  data : Table Str Str
  deadline : Int

/-- The sessions that the calls have created and not removed since. -/
abbrev SessionLedger := Table Str SessionRecord

namespace SessionLedger

/-- A session is alive at a time. -/
def Alive (ledger : SessionLedger) (now : Int) (id : Str) : Prop := ∃ r ∈ ledger id, now < r.deadline

instance (ledger : SessionLedger) (now : Int) (id : Str) : Decidable (ledger.Alive now id) :=
  inferInstanceAs (Decidable (∃ r ∈ ledger id, now < r.deadline))

/-- A session that is alive gets another deadline. -/
def refresh (ledger : SessionLedger) (now : Int) (id : Str) (timeoutMs : Int) : SessionLedger :=
  match ledger id with
  | none => ledger
  | some r =>
    if now < r.deadline then ledger.insert id { r with deadline := TimerNode.after now timeoutMs }
    else ledger

/-- The ledger after a call. -/
def call (ledger : SessionLedger) : SessionCall → SessionLedger
  | .createSession now1 now2 _ tid timeoutMs =>
    ledger.insert (str "sess_" ++ Cxx.toString now1 ++ str "_" ++ tid)
      ⟨Table.empty, TimerNode.after now2 timeoutMs⟩
  | .set id key value =>
    match ledger id with
    | none => ledger
    | some r => ledger.insert id { r with data := r.data.insert key value }
  | .refresh now1 _ id timeoutMs => ledger.refresh now1 id timeoutMs
  | .refreshSession now1 _ id => if id = [] then ledger else ledger.refresh now1 id 1800000
  | .removeSession id => ledger.erase id
  | .get _ _ _ => ledger
  | .sessionExists _ _ => ledger
  | .isSessionIdValid _ _ => ledger
  | .parseAuthContext _ _ => ledger

end SessionLedger

/-- A call that looks a session up: is the session alive at that time, and does the call find it, by its
    answer or by a session that is valid after it? -/
structure SessionLookup where
  alive : Bool
  found : Bool

/-- What a call looks up. -/
def SessionManager.lookup (m : SessionManager) (ledger : SessionLedger) :
    SessionCall → Option SessionLookup
  | .get now id key => some ⟨ledger.Alive now id, m.get id key ≠ []⟩
  | .sessionExists now id => some ⟨ledger.Alive now id, m.sessionExists id⟩
  | .isSessionIdValid now id => some ⟨ledger.Alive now id, m.isSessionIdValid id⟩
  | .refresh now1 now2 id timeoutMs =>
    some ⟨ledger.Alive now1 id, (m.call (.refresh now1 now2 id timeoutMs)).isSessionIdValid id⟩
  | .parseAuthContext now id => some ⟨ledger.Alive now id, m.isSessionIdValid id⟩
  | .refreshSession now1 now2 id =>
    if id = [] then none
    else some ⟨ledger.Alive now1 id, (m.call (.refreshSession now1 now2 id)).isSessionIdValid id⟩
  | .createSession _ _ _ _ _ => none
  | .set _ _ _ => none
  | .removeSession _ => none

/-- The time at which a call looks a session up, whatever it holds, and its id. -/
def SessionCall.looksUp : SessionCall → Option (Int × Str)
  | .sessionExists now id => some (now, id)
  | .isSessionIdValid now id => some (now, id)
  | .refresh now1 _ id _ => some (now1, id)
  | .parseAuthContext now id => some (now, id)
  | .refreshSession now1 _ id => if id = [] then none else some (now1, id)
  | _ => none

/-! ## The system -/

/-- The session manager, the server with its timers, the last clock reading, and the history. -/
structure ServedSessions where
  sessions : SessionManager
  server : TimedServer
  clock : Int
  ledger : SessionLedger
  lookups : List SessionLookup

namespace ServedSessions

/-- Before the first call. -/
def start (clock : Int) : ServedSessions where
  sessions := SessionManager.empty
  server := TimedServer.start clock
  clock := clock
  ledger := Table.empty
  lookups := []

/-- A call on the sessions, or an action of the server, which has the passes of its `tick` among them. -/
inductive Action
  | call (c : SessionCall)
  | server (now : Int) (a : TimedServer.Action)

/-- A step. -/
def step (model : ActorModel) (s : ServedSessions) : Action → Option ServedSessions
  | .call c =>
    if (s.clock :: c.times).Pairwise (· ≤ ·) then
      some { s with
        sessions := s.sessions.call c
        clock := c.times.getLastD s.clock
        ledger := s.ledger.call c
        lookups := s.lookups ++ (s.sessions.lookup s.ledger c).toList }
    else none
  | .server now a =>
    if s.clock ≤ now then
      (TimedServer.step model s.server (now, a)).map (fun server => { s with server := server, clock := now })
    else none

/-- No call has found a session that was not alive. -/
def ExpiredStayExpired (s : ServedSessions) : Prop := ∀ l ∈ s.lookups, l.alive = false → l.found = false

/-- A session that the call looks up has not passed its deadline, unless it has been removed since; one
    that has passed it may be asked for what it does not hold. -/
def LooksUpNoExpired (s : ServedSessions) : Action → Prop
  | .call c =>
    (∀ now id, c.looksUp = some (now, id) → ∀ r ∈ s.ledger id, now < r.deadline) ∧
      ∀ now id key, c = .get now id key → ∀ r ∈ s.ledger id, r.deadline ≤ now →
        (r.data key).getD [] = []
  | .server _ _ => True

end ServedSessions

end ModularNetServer
