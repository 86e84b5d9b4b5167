import Mathlib.Data.List.Pairwise
import Mathlib.Order.Defs.LinearOrder
import Mathlib.Tactic.SplitIfs

/-!
# Fixed windows

A counter that admits at most so many calls in a window. A call at or after the end of a window opens
the next one.
-/

namespace FixedWindow

/-- How many calls a window takes, and how long it lasts. -/
structure Rule where
  maxCount : Int
  width : Int
  maxCount_pos : 1 ≤ maxCount
  width_nonneg : 0 ≤ width

/-- A window, with the number of calls admitted in it. The first one is the call that opened it. -/
structure Window (rule : Rule) where
  opened : Int
  admitted : Int
  admitted_pos : 1 ≤ admitted
  admitted_le : admitted ≤ rule.maxCount

/-- What a counter is asked to do. -/
inductive Call
  | ask (now : Int)
  | clear

variable {rule : Rule}

/-- The window that a call at `now` opens. -/
def Window.opening (rule : Rule) (now : Int) : Window rule := ⟨now, 1, Int.le_refl 1, rule.maxCount_pos⟩

/-- Does a call at `now` find no window that has not ended? -/
def Opens (w : Option (Window rule)) (now : Int) : Prop := ∀ w' ∈ w, w'.opened + rule.width ≤ now

instance (w : Option (Window rule)) (now : Int) : Decidable (Opens w now) :=
  match w with
  | none => isTrue (fun _ h => nomatch h)
  | some w' =>
    if h : w'.opened + rule.width ≤ now then isTrue (fun _ hw => Option.mem_some.mp hw ▸ h)
    else isFalse (fun hw => h (hw w' rfl))

/-- A call at `now`: is it refused, and the window after it. A refused call is not counted. -/
def ask (w : Option (Window rule)) (now : Int) : Bool × Option (Window rule) :=
  match w with
  | none => (false, some (.opening rule now))
  | some w' =>
    if w'.opened + rule.width ≤ now then (false, some (.opening rule now))
    else if h : w'.admitted < rule.maxCount then
      (false, some ⟨w'.opened, w'.admitted + 1, by have := w'.admitted_pos; omega, h⟩)
    else (true, some w')

/-- The window after a call. -/
def step (w : Option (Window rule)) : Call → Option (Window rule)
  | .ask now => (ask w now).2
  | .clear => none

/-- The window after calls. -/
def window (w : Option (Window rule)) (calls : List Call) : Option (Window rule) := calls.foldl step w

/-- The times of the calls and whether they are refused. -/
def decisions (w : Option (Window rule)) : List Call → List (Int × Bool)
  | [] => []
  | .ask now :: calls => (now, (ask w now).1) :: decisions (ask w now).2 calls
  | .clear :: calls => decisions none calls

/-- How many calls are admitted from `start` until before `stop`. -/
def admittedIn (start stop : Int) (ds : List (Int × Bool)) : Nat :=
  ds.countP (fun d => d.2 = false ∧ start ≤ d.1 ∧ d.1 < stop)

theorem admittedIn_cons (start stop now : Int) (refused : Bool) (ds : List (Int × Bool)) :
    admittedIn start stop ((now, refused) :: ds) =
      (if refused = false ∧ start ≤ now ∧ now < stop then 1 else 0) + admittedIn start stop ds := by
  simp only [admittedIn, List.countP_cons, decide_eq_true_eq]
  omega

theorem ask_of_opens {w : Option (Window rule)} {now : Int} (h : Opens w now) :
    ask w now = (false, some (.opening rule now)) := by
  unfold ask
  split
  · rfl
  · rw [if_pos (h _ rfl)]

/-! ## Inside a window -/

/-- Inside a window calls are admitted as long as the window takes more, and no longer. -/
theorem admitted_inside (w : Window rule) (times : List Int)
    (h : ∀ now ∈ times, now < w.opened + rule.width) :
    (((decisions (some w) (times.map .ask)).countP (fun d => d.2 = false) : Nat) : Int) =
      min (times.length : Int) (rule.maxCount - w.admitted) := by
  induction times generalizing w with
  | nil =>
    have := w.admitted_le
    simp only [List.map_nil, decisions, List.countP_nil, List.length_nil]
    omega
  | cons now times ih =>
    have hnow : ¬ w.opened + rule.width ≤ now := by
      have := h now (by simp)
      omega
    have hrest : ∀ t ∈ times, t < w.opened + rule.width := fun t ht => h t (by simp [ht])
    simp only [List.map_cons, decisions, ask, if_neg hnow, List.length_cons]
    by_cases hfull : w.admitted < rule.maxCount
    · rw [dif_pos hfull, List.countP_cons_of_pos (by simp)]
      have hcount := ih ⟨w.opened, w.admitted + 1, by have := w.admitted_pos; omega, hfull⟩ hrest
      push_cast
      rw [hcount]
      show min (times.length : Int) (rule.maxCount - (w.admitted + 1)) + 1 = _
      omega
    · rw [dif_neg hfull, List.countP_cons_of_neg (by simp)]
      have hcount := ih w hrest
      have := w.admitted_le
      show ((List.countP _ (decisions (some w) (times.map .ask)) : Nat) : Int) = _
      rw [hcount]
      omega

/-- Of the calls of a window exactly the first `maxCount` are admitted. -/
theorem admitted_of_opens {w : Option (Window rule)} {now : Int} (hopens : Opens w now) (times : List Int)
    (h : ∀ t ∈ times, t < now + rule.width) :
    (((decisions w (.ask now :: times.map .ask)).countP (fun d => d.2 = false) : Nat) : Int) =
      min ((times.length : Int) + 1) rule.maxCount := by
  simp only [decisions, ask_of_opens hopens]
  rw [List.countP_cons_of_pos (by simp)]
  have hcount := admitted_inside (Window.opening rule now) times h
  have := rule.maxCount_pos
  push_cast
  rw [hcount]
  simp only [Window.opening]
  omega

/-! ## Any interval of the width of a window -/

/-- What is known of `count` calls admitted from `start` on, where the last call was at `last`: an
    interval meets at most two windows, and only the calls of the second are still counted. -/
structure Sliding (start : Int) (w : Option (Window rule)) (last : Int) (count : Nat) : Prop where
  before : last < start → count = 0
  unopened : w = none → count = 0
  opened_le : ∀ w' ∈ w, w'.opened ≤ last
  first : ∀ w' ∈ w, w'.opened < start → (count : Int) < w'.admitted
  second : ∀ w' ∈ w, w'.opened < start + rule.width → (count : Int) < rule.maxCount + w'.admitted
  past : (count : Int) < 2 * rule.maxCount

/-- Before the first call. -/
theorem sliding_none (start last : Int) : Sliding start (none : Option (Window rule)) last 0 := by
  have hmax := rule.maxCount_pos
  exact ⟨fun _ => rfl, fun _ => rfl, (fun _ h => nomatch h), (fun _ h => nomatch h), (fun _ h => nomatch h),
    by omega⟩

/-- The same after a call at `now`. -/
theorem Sliding.ask {start : Int} {w : Option (Window rule)} {last now : Int} {count : Nat}
    (h : Sliding start w last count) (hle : last ≤ now) :
    Sliding start (ask w now).2 now
      (count + if (FixedWindow.ask w now).1 = false ∧ start ≤ now ∧ now < start + rule.width then 1
        else 0) := by
  obtain ⟨hbefore, hnone, hopened, hfirst, hsecond, hpast⟩ := h
  have hmax := rule.maxCount_pos
  by_cases hopens : Opens w now
  · rw [ask_of_opens hopens]
    -- the windows before are those of calls before `start`, or one of them is
    have hadmitted : now < start + rule.width → (count : Int) < rule.maxCount := by
      intro hnow
      rcases w with _ | w'
      · have := hnone rfl
        omega
      · have hend := hopens w' rfl
        have := hfirst w' rfl (by omega)
        have := w'.admitted_le
        omega
    refine ⟨?_, ?_, ?_, ?_, ?_, ?_⟩
    · intro hnow
      have := hbefore (by omega)
      rw [if_neg (by omega)]
      omega
    · intro hw
      cases hw
    · rintro w' ⟨⟩
      exact Int.le_refl now
    · rintro w' ⟨⟩ hnow
      simp only [Window.opening] at hnow ⊢
      have := hbefore (by omega)
      split_ifs <;> omega
    · rintro w' ⟨⟩ hnow
      simp only [Window.opening] at hnow ⊢
      have := hadmitted hnow
      split_ifs <;> omega
    · split_ifs with hcounted
      · have := hadmitted hcounted.2.2
        omega
      · omega
  · rcases w with _ | w'
    · exact absurd (fun _ hw => nomatch hw) hopens
    · have hinside : ¬ w'.opened + rule.width ≤ now :=
        fun hend => hopens (fun _ hw => Option.mem_some.mp hw ▸ hend)
      have hopened := hopened w' rfl
      have hfirst := hfirst w' rfl
      have hsecond := hsecond w' rfl
      have hadmitted := w'.admitted_le
      unfold FixedWindow.ask
      simp only [if_neg hinside]
      by_cases hroom : w'.admitted < rule.maxCount
      · rw [dif_pos hroom]
        refine ⟨?_, ?_, ?_, ?_, ?_, ?_⟩
        · intro hnow
          have := hbefore (by omega)
          rw [if_neg (by omega)]
          omega
        · intro hw
          cases hw
        · rintro w'' ⟨⟩
          show w'.opened ≤ now
          omega
        · rintro w'' ⟨⟩ hnow
          have := hfirst hnow
          show _ < w'.admitted + 1
          split_ifs <;> omega
        · rintro w'' ⟨⟩ hnow
          have := hsecond hnow
          show _ < rule.maxCount + (w'.admitted + 1)
          split_ifs <;> omega
        · split_ifs with hcounted
          · have := hsecond (by omega)
            omega
          · omega
      · rw [dif_neg hroom, if_neg (by simp)]
        refine ⟨fun hnow => hbefore (by omega), (fun hw => nomatch hw), ?_, ?_, ?_, hpast⟩
        · rintro w'' ⟨⟩
          omega
        · rintro w'' ⟨⟩ hnow
          exact hfirst hnow
        · rintro w'' ⟨⟩ hnow
          exact hsecond hnow

/-- Fewer than twice as many calls as a window takes are admitted in an interval of its width. -/
theorem Sliding.decisions {start : Int} {w : Option (Window rule)} {last : Int} {count : Nat}
    (h : Sliding start w last count) {times : List Int} (hle : ∀ t ∈ times, last ≤ t)
    (hsorted : times.Pairwise (· ≤ ·)) :
    ((count + admittedIn start (start + rule.width) (FixedWindow.decisions w (times.map .ask)) : Nat) : Int) <
      2 * rule.maxCount := by
  induction times generalizing w last count with
  | nil => exact h.past
  | cons now times ih =>
    rw [List.pairwise_cons] at hsorted
    simp only [List.map_cons, FixedWindow.decisions]
    rw [admittedIn_cons, ← Nat.add_assoc]
    exact ih (h.ask (hle now (by simp))) hsorted.1 hsorted.2

/-- Calls without a `clear`, in the order of their times. -/
theorem admittedIn_le (times : List Int) (hsorted : times.Pairwise (· ≤ ·)) (start : Int) :
    (admittedIn start (start + rule.width) (decisions (none : Option (Window rule)) (times.map .ask)) : Int) ≤
      2 * rule.maxCount := by
  have hmax := rule.maxCount_pos
  have hstart := @sliding_none rule start (times.headD 0)
  have hle : ∀ t ∈ times, times.headD 0 ≤ t := by
    intro t ht
    rcases times with _ | ⟨now, times⟩
    · simp at ht
    · rcases List.mem_cons.mp ht with rfl | ht
      · exact Int.le_refl _
      · exact (List.pairwise_cons.mp hsorted).1 t ht
  have hcount := hstart.decisions hle hsorted
  rw [Nat.zero_add] at hcount
  exact Int.le_of_lt hcount

end FixedWindow
