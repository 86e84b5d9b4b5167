import ModularNetServer.Library.Transition

/-!
# The log

`log.cpp` after `init` has opened the file and started the thread: calls of `write` from any threads,
`logThread`, and one call of `shutdown`. `m_running` and `m_close_log` are read and written without
`m_mutex`, each in a step of its own. The queue is used under `m_mutex` only, so the critical section
of `write` is one step; those of `logThread` and `shutdown` take many. A blocked log thread may wake up
at any time, as `condition_variable::wait` allows.
-/

namespace ModularNetServer

inductive LogLevel
  | debug
  | info
  | warn
  | error
  deriving DecidableEq

/-- The value of the enumeration. -/
def LogLevel.value : LogLevel → Nat
  | .debug => 0
  | .info => 1
  | .warn => 2
  | .error => 3

def levelToString : LogLevel → String
  | .debug => "DEBUG"
  | .info => "INFO"
  | .warn => "WARN"
  | .error => "ERROR"

/-- `formatLog`, given what `put_time` prints. -/
def formatLog (time : String) (level : LogLevel) (message : String) : String :=
  time ++ " [" ++ levelToString level ++ "] " ++ message

/-- An entry of the queue, with the number of the call that has pushed it. -/
structure LogEntry where
  call : Nat
  text : String
  deriving DecidableEq

/-- Where a call of `write` is. -/
inductive WriteStage
  | entered
  /-- Past the tests of `m_close_log` and of the level. -/
  | accepted
  /-- It asks for `m_mutex`. -/
  | formatted (text : String)
  /-- Before `notify_one`. -/
  | pushed
  | returned
  deriving DecidableEq

structure WriteCall where
  level : LogLevel
  message : String
  stage : WriteStage
  deriving DecidableEq

/-- Where the log thread is. -/
inductive LogThread
  /-- Before the test of `while(m_running)`. -/
  | test
  /-- It asks for `m_mutex`: in a new round of the loop, or woken up. -/
  | locking
  /-- It holds `m_mutex` and evaluates the predicate of `m_cv.wait`. -/
  | evaluating
  /-- The predicate was false, and `m_mutex` is still held. -/
  | blocking
  | blocked
  /-- In `while (!m_log_queue.empty())`. -/
  | draining
  /-- It has popped an entry. -/
  | writing (entry : LogEntry)
  | exited
  deriving DecidableEq

/-- Whether the thread holds `m_mutex`. -/
def LogThread.holds : LogThread → Bool
  | .evaluating | .blocking | .draining | .writing _ => true
  | .test | .locking | .blocked | .exited => false

/-- A notification of `m_cv`. -/
def LogThread.notify : LogThread → LogThread
  | .blocked => .locking
  | thread => thread

/-- The entry in the hands of the thread. -/
def LogThread.entry : LogThread → List LogEntry
  | .writing entry => [entry]
  | _ => []

/-- Where the thread that calls `shutdown` is. -/
inductive LogShutdown
  | notCalled
  | called
  /-- Before `m_running = false`. -/
  | stopping
  /-- Before `m_close_log = true`. -/
  | closing
  /-- Before `m_cv.notify_all()`. -/
  | notifying
  | joining
  | locking
  /-- It holds `m_mutex` and writes the rest of the queue. -/
  | draining
  | closingFile
  | returned
  deriving DecidableEq

/-- The members of `Log`, the calls, and the history: what was pushed, in order. A line of the file is
    what one `m_log_file << log_entry << std::endl` appends. -/
structure Log where
  level : LogLevel
  closeLog : Bool
  running : Bool
  logQueue : List LogEntry
  logFile : List LogEntry
  fileOpen : Bool
  thread : LogThread
  shutdown : LogShutdown
  calls : List WriteCall
  queued : List LogEntry

namespace Log

/-- `init` has returned. -/
def start (level : LogLevel) : Log where
  level := level
  closeLog := false
  running := true
  logQueue := []
  logFile := []
  fileOpen := true
  thread := .test
  shutdown := .notCalled
  calls := []
  queued := []

/-- A call of `write` goes on. -/
def setStage (s : Log) (i : Nat) (call : WriteCall) (stage : WriteStage) : Log :=
  { s with calls := s.calls.set i { call with stage := stage } }

/-- `m_log_queue.push`. -/
def push (s : Log) (entry : LogEntry) : Log :=
  { s with logQueue := s.logQueue ++ [entry], queued := s.queued ++ [entry] }

/-- `m_log_file << entry << std::endl`. -/
def writeLine (s : Log) (entry : LogEntry) : Log :=
  if s.fileOpen then { s with logFile := s.logFile ++ [entry] } else s

def notify (s : Log) : Log :=
  { s with thread := s.thread.notify }

/-- Whether `m_mutex` is held. -/
def locked (s : Log) : Bool := s.thread.holds || s.shutdown = .draining

/-- The next step of a call of `write`; `now` is what `put_time` prints. -/
def write (s : Log) (i : Nat) (now : String) (call : WriteCall) : Option Log :=
  match call.stage with
  | .entered =>
    if s.closeLog then some (s.setStage i call .returned)
    else if s.level.value ≤ call.level.value then some (s.setStage i call .accepted)
    else some (s.setStage i call .returned)
  | .accepted => some (s.setStage i call (.formatted (formatLog now call.level call.message)))
  | .formatted text => if s.locked then none else some ((s.push ⟨i, text⟩).setStage i call .pushed)
  | .pushed => some (s.notify.setStage i call .returned)
  | .returned => none

/-- The next step of `logThread`: `none` where it is blocked, or over. -/
def logThread (s : Log) : Option Log :=
  match s.thread with
  | .test => some { s with thread := if s.running then .locking else .exited }
  | .locking => if s.locked then none else some { s with thread := .evaluating }
  | .evaluating => some { s with thread := if s.logQueue ≠ [] ∨ s.running = false then .draining else .blocking }
  | .blocking => some { s with thread := .blocked }
  | .blocked => none
  | .draining =>
    match s.logQueue with
    | [] => some { s with thread := .test }
    | entry :: rest => some { s with logQueue := rest, thread := .writing entry }
  | .writing entry => some { s.writeLine entry with thread := .draining }
  | .exited => none

/-- The next step of `shutdown`: `none` where it is blocked, or over. -/
def shutdownStep (s : Log) : Option Log :=
  match s.shutdown with
  | .notCalled => some { s with shutdown := .called }
  | .called => some { s with shutdown := if s.closeLog ∨ s.running = false then .returned else .stopping }
  | .stopping => some { s with running := false, shutdown := .closing }
  | .closing => some { s with closeLog := true, shutdown := .notifying }
  | .notifying => some { s.notify with shutdown := .joining }
  | .joining => if s.thread = .exited then some { s with shutdown := .locking } else none
  | .locking => if s.locked then none else some { s with shutdown := .draining }
  | .draining =>
    match s.logQueue with
    | [] => some { s with shutdown := .closingFile }
    | entry :: rest => some { s.writeLine entry with logQueue := rest }
  | .closingFile => some { s with fileOpen := false, shutdown := .returned }
  | .returned => none

/-- What the threads do. -/
inductive Action
  /-- A thread calls `write`. -/
  | call (level : LogLevel) (message : String)
  | write (i : Nat) (now : String)
  | logThread
  /-- The log thread wakes up without a notification. -/
  | wakeUp
  | shutdown
  deriving DecidableEq

/-- A step. -/
def step (s : Log) : Action → Option Log
  | .call level message => some { s with calls := s.calls ++ [⟨level, message, .entered⟩] }
  | .write i now =>
    match s.calls[i]? with
    | none => none
    | some call => s.write i now call
  | .logThread => s.logThread
  | .wakeUp => if s.thread = .blocked then some s.notify else none
  | .shutdown => s.shutdownStep

end Log

end ModularNetServer
