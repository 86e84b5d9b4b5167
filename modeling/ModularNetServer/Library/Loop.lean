import Mathlib.Data.Nat.Init
import Mathlib.Logic.Relation

/-!
# Loops with exits and exceptions

A loop body maps a state to the next state, to the value the loop is left with, or to an exception.
`run` executes it for a bounded number of passes. If a measure decreases with every pass that goes
on, `eval` is the total result of the loop, and it satisfies the loop's unfolding equation.
-/

namespace Loop

variable {ε σ τ ρ π : Type*}

/-- One pass of a loop body: go on with a new state, or leave the loop with a result. -/
inductive Pass (σ ρ : Type*)
  | next (s : σ)
  | exit (r : ρ)

/-- The loop with at most the given number of passes; `none` if it has not ended by then. -/
def run (body : σ → Except ε (Pass σ ρ)) : Nat → σ → Option (Except ε ρ)
  | 0, _ => none
  | n + 1, s =>
    match body s with
    | .error e => some (.error e)
    | .ok (.exit r) => some (.ok r)
    | .ok (.next s') => run body n s'

/-- The measure decreases with every pass that goes on. -/
def Decreases (body : σ → Except ε (Pass σ ρ)) (μ : σ → Nat) : Prop :=
  ∀ s s', body s = .ok (.next s') → μ s' < μ s

section Run

variable {body : σ → Except ε (Pass σ ρ)} {μ : σ → Nat}

theorem run_error {n : Nat} {s : σ} {e : ε} (h : body s = .error e) :
    run body (n + 1) s = some (.error e) := by simp [run, h]

theorem run_exit {n : Nat} {s : σ} {r : ρ} (h : body s = .ok (.exit r)) :
    run body (n + 1) s = some (.ok r) := by simp [run, h]

theorem run_next {n : Nat} {s s' : σ} (h : body s = .ok (.next s')) :
    run body (n + 1) s = run body n s' := by simp [run, h]

/-- More passes do not change a result. -/
theorem run_mono {n m : Nat} {s : σ} {r : Except ε ρ} (h : run body n s = some r) (hnm : n ≤ m) :
    run body m s = some r := by
  induction n generalizing m s with
  | zero => simp [run] at h
  | succ n ih =>
    obtain ⟨m, rfl⟩ : ∃ k, m = k + 1 := ⟨m - 1, by omega⟩
    simp only [run] at h ⊢
    split at h
    · exact h
    · exact h
    · exact ih h (by omega)

/-- A loop that keeps an invariant under which a measure decreases ends. -/
theorem run_terminates {I : σ → Prop} (hI : ∀ s s', I s → body s = .ok (.next s') → I s')
    (hd : ∀ s s', I s → body s = .ok (.next s') → μ s' < μ s) {n : Nat} {s : σ} (hs : I s)
    (hn : μ s < n) : (run body n s).isSome := by
  induction n generalizing s with
  | zero => omega
  | succ n ih =>
    simp only [run]
    split
    · rfl
    · rfl
    · rename_i s' hs'
      have := hd s s' hs hs'
      exact ih (hI s s' hs hs') (by omega)

theorem run_isSome (hd : Decreases body μ) {n : Nat} {s : σ} (hn : μ s < n) :
    (run body n s).isSome :=
  run_terminates (I := fun _ => True) (fun _ _ _ _ => trivial) (fun s s' _ => hd s s') trivial hn

/-- The second state is the first one, or comes after it. -/
def Reaches (body : σ → Except ε (Pass σ ρ)) : σ → σ → Prop :=
  Relation.ReflTransGen fun s s' => body s = .ok (.next s')

/-- What the passes preserve holds of every state that the loop comes to. -/
theorem Reaches.invariant {I : σ → Prop} (hI : ∀ s s', I s → body s = .ok (.next s') → I s') {s s' : σ}
    (h : Reaches body s s') (hs : I s) : I s' := by
  induction h with
  | refl => exact hs
  | tail _ hpass ih => exact hI _ _ ih hpass

/-- A loop that ends does so in a state that it has come to. -/
theorem run_ends {n : Nat} {s : σ} {r : Except ε ρ} (h : run body n s = some r) :
    ∃ s', Reaches body s s' ∧ body s' = r.map Pass.exit := by
  induction n generalizing s with
  | zero => simp [run] at h
  | succ n ih =>
    simp only [run] at h
    split at h
    · rename_i e he
      cases h
      exact ⟨s, .refl, he⟩
    · rename_i r' hr
      cases h
      exact ⟨s, .refl, hr⟩
    · rename_i s₁ hs₁
      obtain ⟨s', hreach, hend⟩ := ih h
      exact ⟨s', .head hs₁ hreach, hend⟩

/-- What the passes preserve holds where the loop is left. -/
theorem run_invariant {I : σ → Prop} (hI : ∀ s s', I s → body s = .ok (.next s') → I s') {n : Nat}
    {s : σ} {r : ρ} (h : run body n s = some (.ok r)) (hs : I s) :
    ∃ s', I s' ∧ body s' = .ok (.exit r) := by
  obtain ⟨s', hreach, hexit⟩ := run_ends h
  exact ⟨s', hreach.invariant hI hs, hexit⟩

/-- What the passes of a loop do, in their order, for a bounded number of passes. -/
def trace (body : σ → Except ε (Pass σ ρ)) (out : σ → List τ) : Nat → σ → List τ
  | 0, _ => []
  | n + 1, s =>
    out s ++
      match body s with
      | .ok (.next s') => trace body out n s'
      | _ => []

/-- What holds of all that a pass does under an invariant holds of all that the loop does. -/
theorem trace_forall {I : σ → Prop} {P : τ → Prop} {out : σ → List τ}
    (hI : ∀ s s', I s → body s = .ok (.next s') → I s') (hout : ∀ s, I s → ∀ x ∈ out s, P x) {n : Nat}
    {s : σ} (hs : I s) : ∀ x ∈ trace body out n s, P x := by
  induction n generalizing s with
  | zero => simp [trace]
  | succ n ih =>
    intro x hx
    rcases List.mem_append.mp hx with hx | hx
    · exact hout s hs x hx
    · split at hx
      · rename_i s' hs'
        exact ih (hI s s' hs hs') x hx
      · cases hx

end Run

/-- The result of a loop whose passes decrease a measure. -/
def eval (body : σ → Except ε (Pass σ ρ)) (μ : σ → Nat) (hd : Decreases body μ) (s : σ) :
    Except ε ρ :=
  (run body (μ s + 1) s).get (run_isSome hd (Nat.lt_succ_self _))

section Eval

variable {body : σ → Except ε (Pass σ ρ)} {μ : σ → Nat} {hd : Decreases body μ}

theorem run_eval (s : σ) : run body (μ s + 1) s = some (eval body μ hd s) := by simp [eval]

theorem eval_of_run {n : Nat} {s : σ} {r : Except ε ρ} (h : run body n s = some r) :
    eval body μ hd s = r := by
  have h1 := run_mono h (Nat.le_max_left n (μ s + 1))
  have h2 := run_mono (@run_eval _ _ _ _ _ hd s) (Nat.le_max_right n (μ s + 1))
  exact Option.some.inj (h2.symm.trans h1)

theorem eval_error {s : σ} {e : ε} (h : body s = .error e) : eval body μ hd s = .error e :=
  eval_of_run (n := 1) (run_error h)

theorem eval_exit {s : σ} {r : ρ} (h : body s = .ok (.exit r)) : eval body μ hd s = .ok r :=
  eval_of_run (n := 1) (run_exit h)

theorem eval_next {s s' : σ} (h : body s = .ok (.next s')) :
    eval body μ hd s = eval body μ hd s' :=
  eval_of_run (n := μ s' + 1 + 1) ((run_next h).trans (run_eval s'))

/-- A loop ends in a state that it has come to. -/
theorem eval_ends (s : σ) :
    ∃ s', Reaches body s s' ∧ body s' = (eval body μ hd s).map Pass.exit := run_ends (run_eval s)

/-- The induction that goes with a loop: a property of a state may be proved from the state after
    the pass. -/
theorem induct (hd : Decreases body μ) {P : σ → Prop}
    (h : ∀ s, (∀ s', body s = .ok (.next s') → P s') → P s) (s : σ) : P s := by
  induction hn : μ s using Nat.strong_induction_on generalizing s with
  | _ n ih =>
    refine h s (fun s' hs' => ih (μ s') ?_ s' rfl)
    rw [← hn]
    exact hd s s' hs'

end Eval

/-! ## Nested loops -/

section Nested

/-- A pass of an inner loop, as a pass of the two loops in one: the inner loop is left with a pass of the
    outer loop, which goes on after a `break` and is left too by a `return`. -/
def Pass.flatten : Pass σ (Pass σ ρ) → Pass σ ρ
  | .next s => .next s
  | .exit p => p

/-- A loop gives the same result from two states that its body does not tell apart. -/
theorem eval_congr {body : σ → Except ε (Pass σ ρ)} {μ : σ → Nat} {hd : Decreases body μ} {s t : σ}
    (h : body s = body t) : eval body μ hd s = eval body μ hd t := by
  cases ht : body t with
  | error e => rw [eval_error ht, eval_error (h.trans ht)]
  | ok p =>
    cases p with
    | next t' => rw [eval_next ht, eval_next (h.trans ht)]
    | exit r => rw [eval_exit ht, eval_exit (h.trans ht)]

variable {flat outer : σ → Except ε (Pass σ ρ)} {inner : σ → Except ε (Pass σ (Pass σ ρ))}
  {μ ν κ : σ → Nat} {hd : Decreases flat μ} {hd' : Decreases outer ν} {hd'' : Decreases inner κ}
  {I : σ → Prop}

/-- Two nested loops are one loop, if the body of the outer loop runs the inner loop in the states `I`, where
    the inner loop stays. -/
theorem eval_nested (hflat : ∀ s, I s → flat s = (inner s).map Pass.flatten)
    (hstay : ∀ s s', I s → inner s = .ok (.next s') → I s')
    (hinner : ∀ s, I s → outer s = eval inner κ hd'' s) (houter : ∀ s, ¬ I s → outer s = flat s) (s : σ) :
    eval outer ν hd' s = eval flat μ hd s := by
  induction s using induct hd with
  | h s ih =>
    -- the outer loop does what one loop does, and the loops agree from the next state
    have hsame : outer s = flat s → eval outer ν hd' s = eval flat μ hd s := by
      intro h
      cases hs : flat s with
      | error e => rw [eval_error hs, eval_error (h.trans hs)]
      | ok p =>
        cases p with
        | next s' => rw [eval_next hs, eval_next (h.trans hs), ih s' hs]
        | exit r => rw [eval_exit hs, eval_exit (h.trans hs)]
    by_cases hI : I s
    · cases hs : inner s with
      | error e =>
        refine hsame ?_
        rw [hinner s hI, eval_error hs, hflat s hI, hs]
        rfl
      | ok p =>
        cases p with
        | next s' =>
          have hnext : flat s = .ok (.next s') := by
            rw [hflat s hI, hs]
            rfl
          have hpass : outer s = outer s' := by
            rw [hinner s hI, hinner s' (hstay s s' hI hs), eval_next hs]
          rw [eval_congr hpass, eval_next hnext, ih s' hnext]
        | exit p =>
          refine hsame ?_
          rw [hinner s hI, eval_exit hs, hflat s hI, hs]
          rfl
    · exact hsame (houter s hI)

end Nested

/-! ## Simulation -/

/-- Two outcomes of a pass that agree: the same exception, related states or related results. -/
def PassRel (R : σ → τ → Prop) (Q : ρ → π → Prop) :
    Except ε (Pass σ ρ) → Except ε (Pass τ π) → Prop
  | .error e, .error e' => e = e'
  | .ok (.next s), .ok (.next t) => R s t
  | .ok (.exit r), .ok (.exit p) => Q r p
  | _, _ => False

/-- Two outcomes of a loop that agree: the same exception or related results. -/
def ResultRel (Q : ρ → π → Prop) : Except ε ρ → Except ε π → Prop
  | .error e, .error e' => e = e'
  | .ok r, .ok p => Q r p
  | _, _ => False

theorem ResultRel.imp {Q Q' : ρ → π → Prop} {r : Except ε ρ} {p : Except ε π}
    (h : ResultRel Q r p) (hQ : ∀ a b, Q a b → Q' a b) : ResultRel Q' r p := by
  cases r with
  | error e => cases p <;> exact h
  | ok a =>
    cases p with
    | error e => exact h
    | ok b => exact hQ a b h

section Simulation

variable {body : σ → Except ε (Pass σ ρ)} {body' : τ → Except ε (Pass τ π)} {μ : σ → Nat}
  {ν : τ → Nat} {hd : Decreases body μ} {hd' : Decreases body' ν} {R : σ → τ → Prop}
  {Q : ρ → π → Prop}

/-- If one pass agrees and the loops agree from there, the loops agree. -/
theorem eval_rel_of_pass {s : σ} {t : τ} (h : PassRel R Q (body s) (body' t))
    (hnext : ∀ s' t', body s = .ok (.next s') → R s' t' →
      ResultRel Q (eval body μ hd s') (eval body' ν hd' t')) :
    ResultRel Q (eval body μ hd s) (eval body' ν hd' t) := by
  cases hs : body s with
  | error e =>
    cases ht : body' t with
    | error e' =>
      rw [hs, ht] at h
      rw [eval_error hs, eval_error ht]
      exact h
    | ok p => rw [hs, ht] at h; exact h.elim
  | ok p =>
    cases ht : body' t with
    | error e' => rw [hs, ht] at h; cases p <;> exact h.elim
    | ok q =>
      rw [hs, ht] at h
      cases p with
      | next s' =>
        cases q with
        | next t' =>
          rw [eval_next hs, eval_next ht]
          exact hnext s' t' hs h
        | exit r => exact h.elim
      | exit r =>
        cases q with
        | next t' => exact h.elim
        | exit r' =>
          rw [eval_exit hs, eval_exit ht]
          exact h

/-- If every pass from related states agrees, the loops agree. -/
theorem eval_rel (h : ∀ s t, R s t → PassRel R Q (body s) (body' t)) {s : σ} {t : τ}
    (hst : R s t) : ResultRel Q (eval body μ hd s) (eval body' ν hd' t) := by
  induction s using induct hd generalizing t with
  | h s ih => exact eval_rel_of_pass (h s t hst) fun s' t' hs hr => ih s' hs hr

end Simulation

end Loop
