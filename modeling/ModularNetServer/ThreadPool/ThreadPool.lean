import ModularNetServer.Library.Transition

/-!
# The thread pool

`thread_pool.cpp`: the queue, the workers, and one call of `shutdown`. The queue is read and written
under `m_mutex` only, so a critical section is one step; `m_stop` is set under it too, but the test of
the loop of `worker` reads it without. A blocked worker may wake up at any time, as
`condition_variable::wait` allows, so notifications are not part of the state.
-/

namespace ModularNetServer

/-- Where a worker is. -/
inductive Worker
  /-- Before the test of `while(!m_stop)`. -/
  | test
  /-- Past the test: it asks for the lock, or waits for a task. -/
  | waiting
  | running (task : Nat)
  | exited
  deriving DecidableEq

/-- The task that a worker runs. -/
def Worker.task : Worker → List Nat
  | .running task => [task]
  | _ => []

/-- Where the thread that calls `shutdown` is. -/
inductive Shutdown
  | notCalled
  | called
  | joining (i : Nat)
  | returned
  deriving DecidableEq

/-- The members of `ThreadPool`, the call of `shutdown`, and the history: how many tasks were enqueued, which
    calls of `addTask` have returned, which had when `shutdown` was called, which tasks were taken, in
    order, and which were executed. A task is given by its number in the order of enqueueing. -/
structure ThreadPool where
  tasks : List Nat
  stop : Bool
  threads : List Worker
  shutdown : Shutdown
  added : Nat
  completed : List Nat
  before : List Nat
  taken : List Nat
  executed : List Nat

namespace ThreadPool

/-- `ThreadPool`. -/
def start (threadCount : Nat) : ThreadPool where
  tasks := []
  stop := false
  threads := List.replicate threadCount .test
  shutdown := .notCalled
  added := 0
  completed := []
  before := []
  taken := []
  executed := []

/-- `addTask`, up to the end of its critical section. -/
def addTask (s : ThreadPool) : ThreadPool :=
  { s with tasks := s.tasks ++ [s.added], added := s.added + 1 }

/-- A worker goes on. -/
def setWorker (s : ThreadPool) (i : Nat) (w : Worker) : ThreadPool :=
  { s with threads := s.threads.set i w }

/-- The next step of `worker`: `none` where it is blocked, or over. -/
def worker (s : ThreadPool) (i : Nat) : Worker → Option ThreadPool
  | .test => some (s.setWorker i (if s.stop then .exited else .waiting))
  | .waiting =>
    match s.tasks with
    | [] => if s.stop then some (s.setWorker i .exited) else none
    | task :: tasks =>
      some ({ s with tasks := tasks, taken := s.taken ++ [task] }.setWorker i (.running task))
  | .running task => some ({ s with executed := s.executed ++ [task] }.setWorker i .test)
  | .exited => none

/-- The next step of `shutdown`. -/
def shutdownStep (s : ThreadPool) : Option ThreadPool :=
  match s.shutdown with
  | .notCalled => some { s with shutdown := .called, before := s.completed }
  | .called => some { s with shutdown := .joining 0, stop := true }
  | .joining i =>
    match s.threads[i]? with
    | none => some { s with shutdown := .returned }
    | some .exited => some { s with shutdown := .joining (i + 1) }
    | some _ => none
  | .returned => none

/-- What the threads do. -/
inductive Action
  /-- A thread enqueues a task. -/
  | addTask
  /-- A call of `addTask` returns. -/
  | addReturn (task : Nat)
  | worker (i : Nat)
  | shutdown
  deriving DecidableEq

/-- A step. -/
def step (s : ThreadPool) : Action → Option ThreadPool
  | .addTask => some s.addTask
  | .addReturn task =>
    if task < s.added ∧ task ∉ s.completed then some { s with completed := task :: s.completed } else none
  | .worker i =>
    match s.threads[i]? with
    | none => none
    | some w => s.worker i w
  | .shutdown => s.shutdownStep

/-- The tasks that workers run. -/
def running (s : ThreadPool) : List Nat := s.threads.flatMap Worker.task

/-- The workers that have passed the test of their loop and have not taken a task since. -/
def waiting (s : ThreadPool) : Nat := s.threads.count .waiting

/-- Each task added before `shutdown` was called is taken, or will be by a worker that is waiting. -/
def Drains (s : ThreadPool) : Prop :=
  ∀ task ∈ s.before, task ∈ s.tasks → task ∈ s.tasks.take s.waiting

instance (s : ThreadPool) : Decidable s.Drains := inferInstanceAs (Decidable (∀ _ ∈ _, _ → _))

/-- `m_stop` is set when each task added before has a worker. -/
def StopsDrained (s : ThreadPool) : Action → Prop
  | .shutdown => s.shutdown = .called → s.Drains
  | _ => True

instance (s : ThreadPool) : (action : Action) → Decidable (s.StopsDrained action)
  | .shutdown => inferInstanceAs (Decidable (_ → s.Drains))
  | .addTask => isTrue trivial
  | .addReturn _ => isTrue trivial
  | .worker _ => isTrue trivial

end ThreadPool

end ModularNetServer
