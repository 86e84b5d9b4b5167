import ModularNetServer.ThreadPool.ThreadPool

/-!
# The thread pool and its condition variable

`thread_pool.cpp` once more, with the notifications of `m_cv`. `m_cv.wait(lock, pred)` evaluates the
predicate and blocks within one critical section, after which a worker is woken up by a notification, or
without one, and asks for `m_mutex` again. `addTask` and `shutdown` notify after their critical sections.
-/

namespace ModularNetServer

/-- Where a worker is. -/
inductive CvWorker
  /-- Before the test of `while(!m_stop)`. -/
  | test
  /-- It asks for `m_mutex`, past the test. -/
  | locking
  /-- In `m_cv.wait`, with `m_mutex` given up. -/
  | blocked
  /-- It asks for `m_mutex`, in `m_cv.wait`. -/
  | woken
  | running (task : Nat)
  | exited
  deriving DecidableEq

/-- Where the thread that calls `shutdown` is. -/
inductive CvShutdown
  | notCalled
  | called
  /-- Before `m_cv.notify_all()`. -/
  | notifying
  | joining (i : Nat)
  | returned
  deriving DecidableEq

/-- The members of `ThreadPool`, the calls of `addTask` that have left their critical section and not
    notified yet, those that have returned, the call of `shutdown`, and the history as `ThreadPool` has it. -/
structure CvThreadPool where
  tasks : List Nat
  stop : Bool
  threads : List CvWorker
  shutdown : CvShutdown
  added : Nat
  notifying : List Nat
  completed : List Nat
  before : List Nat
  taken : List Nat
  executed : List Nat

namespace CvThreadPool

/-- `ThreadPool`. -/
def start (threadCount : Nat) : CvThreadPool where
  tasks := []
  stop := false
  threads := List.replicate threadCount .test
  shutdown := .notCalled
  added := 0
  notifying := []
  completed := []
  before := []
  taken := []
  executed := []

/-- `addTask`, up to the end of its critical section. -/
def addTask (s : CvThreadPool) : CvThreadPool :=
  { s with tasks := s.tasks ++ [s.added], added := s.added + 1, notifying := s.added :: s.notifying }

/-- A worker goes on. -/
def setWorker (s : CvThreadPool) (i : Nat) (w : CvWorker) : CvThreadPool :=
  { s with threads := s.threads.set i w }

/-- The critical section of `worker`. -/
def wait (s : CvThreadPool) (i : Nat) : CvThreadPool :=
  match s.tasks with
  | [] => s.setWorker i (if s.stop then .exited else .blocked)
  | task :: tasks => { s with tasks := tasks, taken := s.taken ++ [task] }.setWorker i (.running task)

/-- The next step of `worker`: `none` where it is blocked, or over. -/
def worker (s : CvThreadPool) (i : Nat) : CvWorker → Option CvThreadPool
  | .test => some (s.setWorker i (if s.stop then .exited else .locking))
  | .locking => some (s.wait i)
  | .blocked => none
  | .woken => some (s.wait i)
  | .running task => some ({ s with executed := s.executed ++ [task] }.setWorker i .test)
  | .exited => none

/-- `m_cv.notify_one()`: it wakes up a blocked worker, if there is one. -/
def notifyOne (s : CvThreadPool) : Option Nat → Option CvThreadPool
  | none => if CvWorker.blocked ∈ s.threads then none else some s
  | some i => if s.threads[i]? = some .blocked then some (s.setWorker i .woken) else none

/-- What `m_cv.notify_all()` makes of a worker. -/
def CvWorker.wake : CvWorker → CvWorker
  | .blocked => .woken
  | w => w

/-- The next step of `shutdown`. -/
def shutdownStep (s : CvThreadPool) : Option CvThreadPool :=
  match s.shutdown with
  | .notCalled => some { s with shutdown := .called, before := s.completed }
  | .called => some { s with shutdown := .notifying, stop := true }
  | .notifying => some { s with shutdown := .joining 0, threads := s.threads.map CvWorker.wake }
  | .joining i =>
    match s.threads[i]? with
    | none => some { s with shutdown := .returned }
    | some .exited => some { s with shutdown := .joining (i + 1) }
    | some _ => none
  | .returned => none

/-- What the threads do. -/
inductive Action
  /-- A thread enqueues a task. -/
  | addTask
  /-- The call of `addTask` for a task notifies. -/
  | notifyOne (task : Nat) (i : Option Nat)
  /-- A call of `addTask` returns. -/
  | addReturn (task : Nat)
  | worker (i : Nat)
  /-- A blocked worker wakes up without a notification. -/
  | wakeUp (i : Nat)
  | shutdown
  deriving DecidableEq

/-- A step. -/
def step (s : CvThreadPool) : Action → Option CvThreadPool
  | .addTask => some s.addTask
  | .notifyOne task i =>
    if task ∈ s.notifying then { s with notifying := s.notifying.erase task }.notifyOne i else none
  | .addReturn task =>
    if task < s.added ∧ task ∉ s.notifying ∧ task ∉ s.completed then
      some { s with completed := task :: s.completed }
    else none
  | .worker i =>
    match s.threads[i]? with
    | none => none
    | some w => s.worker i w
  | .wakeUp i => if s.threads[i]? = some .blocked then some (s.setWorker i .woken) else none
  | .shutdown => s.shutdownStep

end CvThreadPool

end ModularNetServer
