import Mathlib.Data.List.Induction

/-!
# A field that only some items set

A fold over items, each of which either sets a field of the state to a value of its own or leaves the field
alone. After the fold the field holds what the last item that sets it has set, whatever it was before.
-/

namespace LastWrite

variable {State Item Value : Type*} {Sets : Item → Value → Prop}

/-- The last item that sets the field at all sets it to `b`. -/
def LastSets (Sets : Item → Value → Prop) (items : List Item) (b : Value) : Prop :=
  ∃ before item after, items = before ++ item :: after ∧ Sets item b ∧ ∀ i ∈ after, ∀ b', ¬ Sets i b'

theorem not_lastSets_nil (b : Value) : ¬ LastSets Sets [] b := by
  rintro ⟨before, item, after, h, -⟩
  simp at h

/-- What is set last is what the last item sets or, if it leaves the field alone, what the others set. -/
theorem lastSets_append {items : List Item} {item : Item} {b : Value} :
    LastSets Sets (items ++ [item]) b ↔ Sets item b ∨ (∀ b', ¬ Sets item b') ∧ LastSets Sets items b := by
  constructor
  · rintro ⟨before, i, after, heq, hset, hafter⟩
    rcases List.eq_nil_or_concat after with rfl | ⟨after, last, rfl⟩
    · obtain ⟨-, hi⟩ := List.append_inj' heq rfl
      obtain rfl : item = i := (List.cons.inj hi).1
      exact .inl hset
    · rw [List.concat_eq_append, ← List.cons_append, ← List.append_assoc] at heq
      obtain ⟨hitems, hi⟩ := List.append_inj' heq rfl
      obtain rfl : item = last := (List.cons.inj hi).1
      exact .inr ⟨hafter item (by simp), before, i, after, hitems, hset, fun j hj => hafter j (by simp [hj])⟩
  · rintro (hset | ⟨hno, before, i, after, rfl, hset, hafter⟩)
    · exact ⟨items, item, [], rfl, hset, by simp⟩
    · refine ⟨before, i, after ++ [item], by simp, hset, ?_⟩
      intro j hj
      rcases List.mem_append.mp hj with hj | hj
      · exact hafter j hj
      · rw [List.mem_singleton.mp hj]
        exact hno

/-- The field after a fold. -/
theorem foldl_lastWrite {step : State → Item → State} {field : State → Value}
    (hset : ∀ s item b, Sets item b → field (step s item) = b)
    (hkeep : ∀ s item, (∀ b, ¬ Sets item b) → field (step s item) = field s) (s : State) (items : List Item) :
    LastSets Sets items (field (items.foldl step s)) ∨
      (∀ b, ¬ LastSets Sets items b) ∧ field (items.foldl step s) = field s := by
  induction items using List.reverseRecOn with
  | nil => exact .inr ⟨not_lastSets_nil, rfl⟩
  | append_singleton items item ih =>
    simp only [List.foldl_append, List.foldl_cons, List.foldl_nil, lastSets_append]
    by_cases h : ∃ b, Sets item b
    · obtain ⟨b, h⟩ := h
      rw [hset _ _ _ h]
      exact .inl (.inl h)
    · have hno : ∀ b, ¬ Sets item b := fun b hb => h ⟨b, hb⟩
      rw [hkeep _ _ hno]
      rcases ih with ih | ⟨ih, hs⟩
      · exact .inl (.inr ⟨hno, ih⟩)
      · exact .inr ⟨fun b hb => hb.elim (hno b) fun hb => ih b hb.2, hs⟩

/-- What is set last is unique, where an item sets the field to at most one value. -/
theorem LastSets.unique (hfun : ∀ i b b', Sets i b → Sets i b' → b = b') {items : List Item} {b b' : Value}
    (h : LastSets Sets items b) (h' : LastSets Sets items b') : b = b' := by
  induction items using List.reverseRecOn with
  | nil => exact absurd h (not_lastSets_nil b)
  | append_singleton items item ih =>
    rcases lastSets_append.mp h with hb | ⟨hno, hb⟩
    · rcases lastSets_append.mp h' with hb' | ⟨hno, -⟩
      · exact hfun _ _ _ hb hb'
      · exact absurd hb (hno b)
    · rcases lastSets_append.mp h' with hb' | ⟨-, hb'⟩
      · exact absurd hb' (hno b')
      · exact ih hb hb'

end LastWrite
