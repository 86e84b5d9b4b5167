import ModularNetServer.Library.Loop
import ModularNetServer.Library.MinHeap
import ModularNetServer.Library.Table

/-!
# The timer manager

`TimerNode` and `TimerManager` (`timer.cpp`, `timer_manager.cpp`). The clock is read by the caller:
an operation gets its one reading, in nanoseconds. A node is an object, so it carries an address,
and `m_timer_map[fd] == timer` compares addresses. Callbacks are values of a type `C`; running one
is recorded. The loop of `tick` need not end if callbacks repeat without an interval, so it is run
with a bound on its passes.
-/

namespace ModularNetServer

variable {C : Type*}

/-- `TimerNode`, with the address of the object. -/
structure TimerNode (C : Type*) where
  addr : Nat
  fd : Int
  callback : C
  expire : Int
  isRepeat : Bool
  interval : Int

namespace TimerNode

/-- The point in time `ms` milliseconds after `now`. -/
def after (now ms : Int) : Int := now + ms * 1000000

/-- `TimerNode::TimerNode`. -/
def make (addr : Nat) (now fd : Int) (cb : C) (timeoutMs : Int) (isRepeat : Bool) : TimerNode C where
  addr := addr
  fd := fd
  callback := cb
  expire := after now timeoutMs
  isRepeat := isRepeat
  interval := timeoutMs

/-- `TimerNode::isExpired`. -/
def isExpired (t : TimerNode C) (now : Int) : Bool := t.expire ≤ now

end TimerNode

/-- `TimerManager`: the heap, the map, and the next unused address. -/
structure TimerManager (C : Type*) where
  heap : MinHeap (TimerNode C) TimerNode.expire
  map : Table Int (TimerNode C)
  nextAddr : Nat

namespace TimerManager

/-- A newly made manager. -/
def empty : TimerManager C := ⟨MinHeap.empty, Table.empty, 0⟩

/-- `addTimer`. -/
def addTimer (m : TimerManager C) (now id : Int) (cb : C) (timeoutMs : Int) (isRepeat : Bool) :
    TimerManager C :=
  let timer := TimerNode.make m.nextAddr now id cb timeoutMs isRepeat
  ⟨m.heap.push timer, m.map.insert id timer, m.nextAddr + 1⟩

/-- Is `timer` the node that the map holds for its fd? -/
def isCurrent (m : TimerManager C) (timer : TimerNode C) : Bool :=
  match m.map timer.fd with
  | none => false
  | some t => t.addr = timer.addr

/-- What `tick` does with the top of the heap once it has expired: its callback is run if the map
    still holds it, a repeating timer is pushed anew, and the top is popped. -/
def expireTop (now : Int) (m : TimerManager C) (timer : TimerNode C) : TimerManager C :=
  if m.isCurrent timer then
    if timer.isRepeat then
      let timer' := TimerNode.make m.nextAddr now timer.fd timer.callback timer.interval true
      ⟨(m.heap.push timer').pop, m.map.insert timer.fd timer', m.nextAddr + 1⟩
    else ⟨m.heap.pop, m.map.erase timer.fd, m.nextAddr⟩
  else ⟨m.heap.pop, m.map, m.nextAddr⟩

/-- One pass of the loop of `tick`, with the timers whose callbacks it has run so far. -/
def tickStep (now : Int) (s : TimerManager C × List (TimerNode C)) :
    Except Empty (Loop.Pass (TimerManager C × List (TimerNode C))
      (TimerManager C × List (TimerNode C))) :=
  match s.1.heap.top with
  | none => .ok (.exit s)
  | some timer =>
    if timer.isExpired now then
      .ok (.next (s.1.expireTop now timer, if s.1.isCurrent timer then s.2 ++ [timer] else s.2))
    else .ok (.exit s)

/-- `tick` ends with the manager `m'` after running the callbacks of `ran`, in that order. -/
def Ticks (now : Int) (m : TimerManager C) (ran : List (TimerNode C)) (m' : TimerManager C) : Prop :=
  ∃ passes, Loop.run (tickStep now) passes (m, []) = some (.ok (m', ran))

/-- `isExpired`: an unknown timer counts as expired. -/
def isExpired (m : TimerManager C) (now id : Int) : Bool :=
  match m.map id with
  | none => true
  | some timer => timer.isExpired now

/-! ## Runs -/

/-- A call on the manager. -/
inductive Op (C : Type*)
  | addTimer (id : Int) (cb : C) (timeoutMs : Int) (isRepeat : Bool)
  | tick
  | isExpired (id : Int)

/-- What a call shows to the outside. -/
inductive Output (C : Type*)
  | none
  | ran (timers : List (TimerNode C))
  | answer (b : Bool)

/-- A call at a clock reading. -/
inductive Step (now : Int) (m : TimerManager C) : Op C → Output C → TimerManager C → Prop
  | addTimer (id : Int) (cb : C) (timeoutMs : Int) (isRepeat : Bool) :
      Step now m (.addTimer id cb timeoutMs isRepeat) .none (m.addTimer now id cb timeoutMs isRepeat)
  | tick {ran : List (TimerNode C)} {m' : TimerManager C} (h : Ticks now m ran m') :
      Step now m .tick (.ran ran) m'
  | isExpired (id : Int) : Step now m (.isExpired id) (.answer (m.isExpired now id)) m

/-- A sequence of calls, each with its clock reading. -/
inductive Run : TimerManager C → List (Int × Op C) → List (Output C) → TimerManager C → Prop
  | nil (m : TimerManager C) : Run m [] [] m
  | cons {m m' m'' : TimerManager C} {now : Int} {op : Op C} {out : Output C}
      {ops : List (Int × Op C)} {outs : List (Output C)} (h : Step now m op out m')
      (hs : Run m' ops outs m'') : Run m ((now, op) :: ops) (out :: outs) m''

end TimerManager

end ModularNetServer
