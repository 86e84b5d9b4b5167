import ModularNetServer.Library.CxxText
import ModularNetServer.Timer.TimerManager

/-!
# Sessions

`SessionManager` (`session_manager.cpp`). Every clock reading is passed in. A timer's callback is
`cleanSession` of the session it names; nothing ticks this manager's timers.
-/

namespace ModularNetServer

open Cxx

/-- `Session`. -/
structure Session where
  data : Table Str Str
  expireTime : Int

/-- `SessionManager`. -/
structure SessionManager where
  sessions : Table Str Session
  timerManager : TimerManager Str
  sessionTimers : Table Str Int
  timerSeed : Int

namespace SessionManager

/-- The manager at the start of the program. -/
def empty : SessionManager := ⟨Table.empty, TimerManager.empty, Table.empty, 1000000⟩

/-- `createSession` with the three clock readings it takes. -/
def createSession (m : SessionManager) (now1 now2 now3 : Int) (tid : Str) (timeoutMs : Int) :
    Str × SessionManager :=
  let sessionId := str "sess_" ++ Cxx.toString now1 ++ str "_" ++ tid
  let timerId := m.timerSeed
  (sessionId,
    { sessions := m.sessions.insert sessionId ⟨Table.empty, TimerNode.after now2 timeoutMs⟩
      timerManager := m.timerManager.addTimer now3 timerId sessionId timeoutMs false
      sessionTimers := m.sessionTimers.insert sessionId timerId
      timerSeed := toInt32 (timerId + 1) })

/-- `exists`. -/
def sessionExists (m : SessionManager) (id : Str) : Bool := (m.sessions id).isSome

/-- `isSessionIdValid`. -/
def isSessionIdValid (m : SessionManager) (sessionId : Str) : Bool := m.sessionExists sessionId

/-- `isSessionIdExpired`: `m_session_timers[sessionId]` makes an entry if there is none. -/
def isSessionIdExpired (m : SessionManager) (now : Int) (sessionId : Str) : Bool × SessionManager :=
  match m.sessionTimers sessionId with
  | some timerId => (m.timerManager.isExpired now timerId, m)
  | none =>
    (m.timerManager.isExpired now 0, { m with sessionTimers := m.sessionTimers.insert sessionId 0 })

/-- `set`. -/
def set (m : SessionManager) (id key value : Str) : SessionManager :=
  match m.sessions id with
  | none => m
  | some session =>
    { m with sessions := m.sessions.insert id { session with data := session.data.insert key value } }

/-- `get`. -/
def get (m : SessionManager) (id key : Str) : Str :=
  match m.sessions id with
  | none => []
  | some session => (session.data key).getD []

/-- `removeSession`. -/
def removeSession (m : SessionManager) (id : Str) : SessionManager :=
  { m with
    sessions := m.sessions.erase id
    sessionTimers := m.sessionTimers.erase id }

/-- `refresh` with the two clock readings it takes. -/
def refresh (m : SessionManager) (now1 now2 : Int) (id : Str) (timeoutMs : Int) : SessionManager :=
  match m.sessions id with
  | none => m
  | some session =>
    let sessions := m.sessions.insert id { session with expireTime := TimerNode.after now1 timeoutMs }
    match m.sessionTimers id with
    | none => { m with sessions := sessions }
    | some timerId =>
      { m with
        sessions := sessions
        timerManager := m.timerManager.addTimer now2 timerId id timeoutMs false }

end SessionManager

/-! ## Runs -/

/-- A public operation, with the clock readings that it takes. -/
inductive SessionOp
  | createSession (now1 now2 now3 : Int) (tid : Str) (timeoutMs : Int)
  | isSessionIdValid (id : Str)
  | isSessionIdExpired (now : Int) (id : Str)
  | set (id key value : Str)
  | get (id key : Str)
  | sessionExists (id : Str)
  | removeSession (id : Str)
  | refresh (now1 now2 : Int) (id : Str) (timeoutMs : Int)

/-- The manager after an operation. -/
def SessionManager.apply (m : SessionManager) : SessionOp → SessionManager
  | .createSession now1 now2 now3 tid timeoutMs => (m.createSession now1 now2 now3 tid timeoutMs).2
  | .isSessionIdValid _ => m
  | .isSessionIdExpired now id => (m.isSessionIdExpired now id).2
  | .set id key value => m.set id key value
  | .get _ _ => m
  | .sessionExists _ => m
  | .removeSession id => m.removeSession id
  | .refresh now1 now2 id timeoutMs => m.refresh now1 now2 id timeoutMs

end ModularNetServer
