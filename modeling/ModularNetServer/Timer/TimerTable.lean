import ModularNetServer.Timer.TimerManager

/-!
# The timer table

What a timer manager is for: a table from ids to the registration made last, whose `tick` runs what
is due in the order of the deadlines and keeps what repeats.
-/

namespace ModularNetServer

variable {C : Type*}

/-- A registered timer. -/
structure Registration (C : Type*) where
  callback : C
  deadline : Int
  isRepeat : Bool
  interval : Int

/-- The registration made last for each id. -/
abbrev TimerTable (C : Type*) := Table Int (Registration C)

/-- What a node was registered with. -/
def TimerNode.registration (t : TimerNode C) : Registration C :=
  ⟨t.callback, t.expire, t.isRepeat, t.interval⟩

namespace TimerTable

/-- Registering a timer. -/
def addTimer (table : TimerTable C) (now id : Int) (cb : C) (timeoutMs : Int) (isRepeat : Bool) :
    TimerTable C :=
  table.insert id ⟨cb, TimerNode.after now timeoutMs, isRepeat, timeoutMs⟩

/-- The table after a tick: what was due is gone, or due again an interval from now. -/
def sweep (now : Int) (table : TimerTable C) : TimerTable C := fun id =>
  match table id with
  | none => none
  | some r =>
    if r.deadline ≤ now then
      if r.isRepeat then some { r with deadline := TimerNode.after now r.interval } else none
    else some r

/-- The callbacks that a tick runs: those of the ids that are due, each once and with the
    registration made last, in the order of the deadlines. -/
structure TickOutput (now : Int) (table : TimerTable C) (ran : List (TimerNode C)) : Prop where
  nodup : (ran.map TimerNode.fd).Nodup
  due : ∀ id r, (∃ t ∈ ran, t.fd = id ∧ t.registration = r) ↔ table id = some r ∧ r.deadline ≤ now
  sorted : ran.Pairwise (fun t u => t.expire ≤ u.expire)

/-- A call on the table at a clock reading. -/
inductive Step (now : Int) (table : TimerTable C) :
    TimerManager.Op C → TimerManager.Output C → TimerTable C → Prop
  | addTimer (id : Int) (cb : C) (timeoutMs : Int) (isRepeat : Bool) :
      Step now table (.addTimer id cb timeoutMs isRepeat) .none
        (table.addTimer now id cb timeoutMs isRepeat)
  | tick {ran : List (TimerNode C)} (h : TickOutput now table ran) :
      Step now table .tick (.ran ran) (table.sweep now)
  | isExpired (id : Int) {b : Bool}
      (h : b = true ↔ table id = none ∨ ∃ r, table id = some r ∧ r.deadline ≤ now) :
      Step now table (.isExpired id) (.answer b) table

/-- A sequence of calls, each with its clock reading. -/
inductive Run : TimerTable C → List (Int × TimerManager.Op C) → List (TimerManager.Output C) →
    TimerTable C → Prop
  | nil (table : TimerTable C) : Run table [] [] table
  | cons {table table' table'' : TimerTable C} {now : Int} {op : TimerManager.Op C}
      {out : TimerManager.Output C} {ops : List (Int × TimerManager.Op C)}
      {outs : List (TimerManager.Output C)} (h : Step now table op out table')
      (hs : Run table' ops outs table'') : Run table ((now, op) :: ops) (out :: outs) table''

end TimerTable

/-- The table that a manager stands for. -/
def TimerManager.table (m : TimerManager C) : TimerTable C := fun id =>
  (m.map id).map TimerNode.registration

/-- Repeating timers have an interval. -/
def TimerManager.Op.Positive : TimerManager.Op C → Prop
  | .addTimer _ _ timeoutMs isRepeat => isRepeat = true → 0 < timeoutMs
  | .tick => True
  | .isExpired _ => True

end ModularNetServer
