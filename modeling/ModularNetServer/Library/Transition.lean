import Mathlib.Tactic.TypeStar

/-!
# Transition systems

A system given by its step function, which answers `none` where an action cannot be taken. A run is
a list of actions, and a condition on single steps becomes one on runs. A history may be kept beside
the states.
-/

namespace Transition

variable {σ α : Type*} {step : σ → α → Option σ} {cond : σ → α → Prop}

/-- The state that a list of actions leads to. -/
def run (step : σ → α → Option σ) (s : σ) : List α → Option σ
  | [] => some s
  | a :: actions =>
    match step s a with
    | none => none
    | some s' => run step s' actions

/-- Every action of a run meets a condition, in the state in which it is taken. -/
def Meets (step : σ → α → Option σ) (cond : σ → α → Prop) (s : σ) : List α → Prop
  | [] => True
  | a :: actions =>
    cond s a ∧
      match step s a with
      | none => True
      | some s' => Meets step cond s' actions

instance Meets.decidable [∀ s a, Decidable (cond s a)] (s : σ) :
    (actions : List α) → Decidable (Meets step cond s actions)
  | [] => isTrue trivial
  | a :: actions =>
    have : Decidable (match step s a with
        | none => True
        | some s' => Meets step cond s' actions) :=
      match step s a with
      | none => isTrue trivial
      | some s' => decidable s' actions
    inferInstanceAs (Decidable (_ ∧ _))

theorem meets_true (step : σ → α → Option σ) (s : σ) (actions : List α) :
    Meets step (fun _ _ => True) s actions := by
  induction actions generalizing s with
  | nil => trivial
  | cons a actions ih =>
    refine ⟨trivial, ?_⟩
    cases step s a with
    | none => trivial
    | some s' => exact ih s'

theorem meets_mono {cond' : σ → α → Prop} (hcond : ∀ s a, cond s a → cond' s a) {s : σ} {actions : List α}
    (h : Meets step cond s actions) : Meets step cond' s actions := by
  induction actions generalizing s with
  | nil => trivial
  | cons a actions ih =>
    simp only [Meets] at h ⊢
    refine ⟨hcond s a h.1, ?_⟩
    cases ha : step s a with
    | none => trivial
    | some s' =>
      rw [ha] at h
      exact ih h.2

/-- Two conditions that agree wherever the invariant holds, which the second one keeps, are met by the same
    runs. -/
theorem meets_congr {inv : σ → Prop} {cond' : σ → α → Prop} (hcond : ∀ s a, inv s → (cond s a ↔ cond' s a))
    (hstep : ∀ s a s', inv s → cond' s a → step s a = some s' → inv s') {s : σ} (hs : inv s)
    (actions : List α) : Meets step cond s actions ↔ Meets step cond' s actions := by
  induction actions generalizing s with
  | nil => exact Iff.rfl
  | cons a actions ih =>
    simp only [Meets, hcond s a hs]
    refine and_congr_right fun hc => ?_
    cases ha : step s a with
    | none => exact Iff.rfl
    | some s' => exact ih (hstep s a s' hs hc ha)

/-- What every step that meets the condition preserves holds in every state that a run of such
    steps reaches. -/
theorem run_invariant {inv : σ → Prop}
    (hstep : ∀ s a s', inv s → cond s a → step s a = some s' → inv s') :
    ∀ {actions : List α} {s s' : σ}, inv s → Meets step cond s actions →
      run step s actions = some s' → inv s' := by
  intro actions
  induction actions with
  | nil =>
    intro s s' hs _ hr
    cases hr
    exact hs
  | cons a actions ih =>
    intro s s' hs hm hr
    obtain ⟨hc, hm⟩ := hm
    simp only [run] at hr
    cases ha : step s a with
    | none => simp [ha] at hr
    | some t =>
      rw [ha] at hr hm
      exact ih (hstep s a t hs hc ha) hm hr

/-- What every step preserves holds in every state that a run reaches. -/
theorem run_invariant_of_step {inv : σ → Prop} (hstep : ∀ s a s', inv s → step s a = some s' → inv s')
    {actions : List α} {s s' : σ} (hs : inv s) (hr : run step s actions = some s') : inv s' :=
  run_invariant (fun s a s' hi _ ha => hstep s a s' hi ha) hs (meets_true step s actions) hr

/-- Where each step leads to a state that is good if and only if the step is taken in a good state and
    meets the condition, a run leads from a good state to a good one if and only if all its steps meet
    the condition. -/
theorem run_iff {inv good : σ → Prop} (hinv : ∀ s a s', inv s → step s a = some s' → inv s')
    (hgood : ∀ s a s', inv s → step s a = some s' → (good s' ↔ good s ∧ cond s a)) :
    ∀ {actions : List α} {s s' : σ}, inv s → run step s actions = some s' →
      (good s' ↔ good s ∧ Meets step cond s actions) := by
  intro actions
  induction actions with
  | nil =>
    intro s s' _ hr
    cases hr
    simp [Meets]
  | cons a actions ih =>
    intro s s' hs hr
    simp only [run] at hr
    cases ha : step s a with
    | none => simp [ha] at hr
    | some t =>
      rw [ha] at hr
      rw [ih (hinv s a t hs ha) hr, hgood s a t hs ha, Meets, ha, and_assoc]

/-- A run from a good state leads to a good one if and only if all its steps meet the condition. -/
theorem run_iff_meets {inv good : σ → Prop} (hinv : ∀ s a s', inv s → step s a = some s' → inv s')
    (hgood : ∀ s a s', inv s → step s a = some s' → (good s' ↔ good s ∧ cond s a))
    {actions : List α} {s s' : σ} (hs : inv s) (hg : good s) (hr : run step s actions = some s') :
    good s' ↔ Meets step cond s actions := by
  rw [run_iff hinv hgood hs hr]
  exact and_iff_right hg

/-! ## Simulation -/

section Simulation

variable {σ' α' : Type*} {step' : σ' → α' → Option σ'}

theorem run_append (s : σ) (actions later : List α) :
    run step s (actions ++ later) = (run step s actions).bind (fun s' => run step s' later) := by
  induction actions generalizing s with
  | nil => rfl
  | cons a actions ih =>
    simp only [List.cons_append, run]
    cases step s a with
    | none => rfl
    | some s' => exact ih s'

/-- Where every step is a run of another system, seen through a function on states, so is every run. -/
theorem run_simulation (abs : σ → σ')
    (hstep : ∀ s a s', step s a = some s' → ∃ actions, run step' (abs s) actions = some (abs s'))
    {actions : List α} {s s' : σ} (hr : run step s actions = some s') :
    ∃ actions', run step' (abs s) actions' = some (abs s') := by
  induction actions generalizing s with
  | nil =>
    cases hr
    exact ⟨[], rfl⟩
  | cons a actions ih =>
    simp only [run] at hr
    cases ha : step s a with
    | none => simp [ha] at hr
    | some t =>
      rw [ha] at hr
      obtain ⟨now, hnow⟩ := hstep s a t ha
      obtain ⟨later, hlater⟩ := ih hr
      refine ⟨now ++ later, ?_⟩
      rw [run_append, hnow]
      exact hlater

end Simulation

/-! ## Histories -/

section History

variable {η : Type*}

/-- The system with a history, which each step adds to. -/
def withHistory (step : σ → α → Option σ) (record : η → σ → α → η) (s : σ × η) (a : α) : Option (σ × η) :=
  (step s.1 a).map (fun s' => (s', record s.2 s.1 a))

variable {record : η → σ → α → η}

theorem withHistory_eq_some {s s' : σ × η} {a : α} :
    withHistory step record s a = some s' ↔ step s.1 a = some s'.1 ∧ s'.2 = record s.2 s.1 a := by
  unfold withHistory
  rw [Option.map_eq_some_iff]
  constructor
  · rintro ⟨t, ht, rfl⟩
    exact ⟨ht, rfl⟩
  · rintro ⟨ht, hrecord⟩
    exact ⟨s'.1, ht, by rw [← hrecord]⟩

/-- A condition on the states alone is met with a history exactly if it is met without. -/
theorem meets_withHistory (s : σ) (h : η) (actions : List α) :
    Meets (withHistory step record) (fun s a => cond s.1 a) (s, h) actions ↔ Meets step cond s actions := by
  induction actions generalizing s h with
  | nil => exact Iff.rfl
  | cons a actions ih =>
    simp only [Meets, withHistory]
    cases step s a with
    | none => exact Iff.rfl
    | some s' => exact and_congr_right fun _ => ih s' _

/-- What every step that meets the condition preserves holds in every state and of every history that a run of such
    steps reaches. -/
theorem run_invariant_withHistory {inv : σ × η → Prop}
    (hinv : ∀ s h a s', inv (s, h) → cond s a → step s a = some s' → inv (s', record h s a))
    {actions : List α} {s : σ} {h : η} {s' : σ × η} (hs : inv (s, h)) (hm : Meets step cond s actions)
    (hr : run (withHistory step record) (s, h) actions = some s') : inv s' := by
  refine run_invariant ?_ hs ((meets_withHistory s h actions).mpr hm) hr
  rintro ⟨t, h⟩ a ⟨t', h'⟩ ht hc hstep
  obtain ⟨hstep, rfl⟩ := withHistory_eq_some.mp hstep
  exact hinv t h a t' ht hc hstep

/-- What every step preserves holds in every state and of every history that a run reaches. -/
theorem run_history_invariant {inv : σ × η → Prop}
    (hinv : ∀ s h a s', inv (s, h) → step s a = some s' → inv (s', record h s a))
    {actions : List α} {s : σ} {h : η} {s' : σ × η} (hs : inv (s, h))
    (hr : run (withHistory step record) (s, h) actions = some s') : inv s' :=
  run_invariant_withHistory (fun s h a s' hi _ ha => hinv s h a s' hi ha) hs (meets_true step s actions) hr

/-- The steps are taken from states that have the invariant, and a history is good if and only if all of
    them meet the condition. -/
theorem run_history_iff {inv good : σ × η → Prop}
    (hinv : ∀ s h a s', inv (s, h) → step s a = some s' → inv (s', record h s a))
    (hgood : ∀ s h a s', inv (s, h) → step s a = some s' →
      (good (s', record h s a) ↔ good (s, h) ∧ cond s a))
    {actions : List α} {s : σ} {h : η} {s' : σ × η} (hs : inv (s, h)) (hg : good (s, h))
    (hr : run (withHistory step record) (s, h) actions = some s') :
    good s' ↔ Meets step cond s actions := by
  rw [← @meets_withHistory _ _ _ _ _ record s h actions]
  refine @run_iff_meets _ _ _ _ inv good ?_ ?_ _ _ _ hs hg hr
  · rintro ⟨t, h⟩ a ⟨t', h'⟩ ht hstep
    obtain ⟨hstep, rfl⟩ := withHistory_eq_some.mp hstep
    exact hinv t h a t' ht hstep
  · rintro ⟨t, h⟩ a ⟨t', h'⟩ ht hstep
    obtain ⟨hstep, rfl⟩ := withHistory_eq_some.mp hstep
    exact hgood t h a t' ht hstep

end History

end Transition
