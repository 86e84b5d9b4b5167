import Mathlib.Tactic.SplitIfs

/-!
# Objects that end with their scope

Computations with a state, that end with a value or an exception, and may wait for ever. An object that is
constructed for a scope is destructed when the scope is left, in whatever way; one whose constructor throws
is not. Triples say what holds when a computation ends.
-/

/-- A computation with the state `σ`: how it ends, and the state then; `none` if it waits for ever. -/
def Prog (σ ε α : Type) := σ → Option (Except ε α × σ)

namespace Prog

variable {σ ε α β ω : Type}

/-- A computation that ends at once. -/
def ret (a : α) : Prog σ ε α := fun s => some (.ok a, s)

/-- An exception. -/
def throw (e : ε) : Prog σ ε α := fun s => some (.error e, s)

/-- A change of the state. -/
def modify (f : σ → σ) : Prog σ ε Unit := fun s => some (.ok (), f s)

/-- One computation after another, which an exception in the first one skips. -/
def andThen (m : Prog σ ε α) (f : α → Prog σ ε β) : Prog σ ε β := fun s =>
  match m s with
  | none => none
  | some (.error e, s) => some (.error e, s)
  | some (.ok a, s) => f a s

instance : Monad (Prog σ ε) where
  pure := ret
  bind := andThen

/-- A computation that leaves an object alone. -/
def lift (m : Prog σ ε α) : Prog (σ × ω) ε α := fun s =>
  match m s.1 with
  | none => none
  | some (r, s') => some (r, s', s.2)

/-- A scope with an object: `body` may change the object, which is destructed when `body` has ended. -/
def withObject (construct : Prog σ ε ω) (destruct : ω → σ → σ) (body : Prog (σ × ω) ε α) : Prog σ ε α := fun s =>
  match construct s with
  | none => none
  | some (.error e, s) => some (.error e, s)
  | some (.ok object, s) =>
    match body (s, object) with
    | none => none
    | some (r, s, object) => some (r, destruct object s)

/-- A scope with an object that does not change. -/
def withFixed (construct : Prog σ ε ω) (destruct : ω → σ → σ) (body : ω → Prog σ ε α) : Prog σ ε α :=
  withObject construct destruct fun s => lift (body s.2) s

/-! ## Triples -/

/-- From a state with `P` the computation ends, and `Q` holds of how it ends and of the state. -/
def Triple (P : σ → Prop) (m : Prog σ ε α) (Q : Except ε α → σ → Prop) : Prop :=
  ∀ s, P s → ∃ r s', m s = some (r, s') ∧ Q r s'

variable {P P' : σ → Prop} {m : Prog σ ε α} {Q Q' : Except ε α → σ → Prop}

theorem Triple.weaken (h : Triple P m Q) (hP : ∀ s, P' s → P s) (hQ : ∀ r s, Q r s → Q' r s) :
    Triple P' m Q' := by
  intro s hs
  obtain ⟨r, s', hm, hq⟩ := h s (hP s hs)
  exact ⟨r, s', hm, hQ r s' hq⟩

theorem Triple.ret {a : α} (h : ∀ s, P s → Q (.ok a) s) : Triple P (pure a : Prog σ ε α) Q :=
  fun s hs => ⟨_, s, rfl, h s hs⟩

theorem Triple.throw {e : ε} (h : ∀ s, P s → Q (.error e) s) : Triple P (Prog.throw e : Prog σ ε α) Q :=
  fun s hs => ⟨_, s, rfl, h s hs⟩

theorem Triple.modify {f : σ → σ} {Q : Except ε Unit → σ → Prop} (h : ∀ s, P s → Q (.ok ()) (f s)) :
    Triple P (Prog.modify f) Q :=
  fun s hs => ⟨_, f s, rfl, h s hs⟩

/-- What holds after an exception in the first computation holds at the end. -/
theorem Triple.andThen {R : Except ε α → σ → Prop} {f : α → Prog σ ε β} {Q : Except ε β → σ → Prop}
    (hm : Triple P m R) (hf : ∀ a, Triple (R (.ok a)) (f a) Q)
    (herror : ∀ e s, R (.error e) s → Q (.error e) s) : Triple P (m >>= f) Q := by
  intro s hs
  obtain ⟨r, s', hr, hR⟩ := hm s hs
  have hbind : (m >>= f) s = match (some (r, s') : Option (Except ε α × σ)) with
      | none => none
      | some (.error e, s) => some (.error e, s)
      | some (.ok a, s) => f a s := by
    rw [← hr]
    rfl
  rw [hbind]
  cases r with
  | error e => exact ⟨_, s', rfl, herror e s' hR⟩
  | ok a => exact hf a s' hR

/-- A change of the state is followed by a computation that starts from what it leaves. -/
theorem Triple.modify_andThen {f : σ → σ} {k : Unit → Prog σ ε α} {R : σ → Prop} (hf : ∀ s, P s → R (f s))
    (hk : Triple R (k ()) Q) : Triple P (Prog.modify f >>= k) Q :=
  fun s hs => hk (f s) (hf s hs)

theorem Triple.ite {c : Prop} [Decidable c] {m' : Prog σ ε α} (h : c → Triple P m Q)
    (h' : ¬ c → Triple P m' Q) : Triple P (if c then m else m') Q := by
  split_ifs with hc
  · exact h hc
  · exact h' hc

/-- An object that is left alone keeps what is known of it. -/
theorem Triple.lift {I : ω → Prop} (h : Triple P m Q) :
    Triple (fun s => P s.1 ∧ I s.2) (Prog.lift m) (fun r s => Q r s.1 ∧ I s.2) := by
  rintro ⟨s, object⟩ ⟨hs, ho⟩
  obtain ⟨r, s', hm, hq⟩ := h s hs
  refine ⟨r, (s', object), ?_, hq, ho⟩
  simp only [Prog.lift, hm]

/-- The destructor turns what holds at the end of the body into what holds after the scope. -/
theorem Triple.withObject {construct : Prog σ ε ω} {destruct : ω → σ → σ} {body : Prog (σ × ω) ε α}
    {R : Except ε ω → σ → Prop} {B : Except ε α → σ × ω → Prop} (hc : Triple P construct R)
    (hb : Triple (fun s => R (.ok s.2) s.1) body B) (hd : ∀ r s object, B r (s, object) → Q r (destruct object s))
    (herror : ∀ e s, R (.error e) s → Q (.error e) s) : Triple P (Prog.withObject construct destruct body) Q := by
  intro s hs
  obtain ⟨r, s', hr, hR⟩ := hc s hs
  cases r with
  | error e =>
    refine ⟨.error e, s', ?_, herror e s' hR⟩
    simp only [Prog.withObject, hr]
  | ok object =>
    obtain ⟨r, ⟨s'', object'⟩, hbody, hB⟩ := hb (s', object) hR
    refine ⟨r, destruct object' s'', ?_, hd r s'' object' hB⟩
    simp only [Prog.withObject, hr, hbody]

theorem Triple.withFixed {construct : Prog σ ε ω} {destruct : ω → σ → σ} {body : ω → Prog σ ε α}
    {R : Except ε ω → σ → Prop} {B : ω → Except ε α → σ → Prop} (hc : Triple P construct R)
    (hb : ∀ object, Triple (R (.ok object)) (body object) (B object))
    (hd : ∀ r s object, B object r s → Q r (destruct object s))
    (herror : ∀ e s, R (.error e) s → Q (.error e) s) : Triple P (Prog.withFixed construct destruct body) Q := by
  apply @Triple.withObject _ _ _ _ P Q construct destruct _ R (fun r s => B s.2 r s.1) hc ?_ hd herror
  rintro ⟨s, object⟩ hR
  obtain ⟨r, s', hbody, hB⟩ := hb object s hR
  refine ⟨r, (s', object), ?_, hB⟩
  simp only [Prog.lift, hbody]

end Prog
