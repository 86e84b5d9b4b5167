import Mathlib.Data.List.Perm.Basic

/-!
# Slots

A list with a slot for each thread. A step of a thread replaces what is in its slot, so a sum or a
count over all slots changes by what one slot changes.
-/

namespace Slots

open scoped List

variable {α β : Type*} {l : List α} {i j : Nat} {a b x : α}

/-- Up to order, replacing a slot exchanges its old content for the new one. -/
theorem set_perm (h : l[i]? = some a) (b : α) : (a :: l.set i b).Perm (b :: l) := by
  obtain ⟨hi, rfl⟩ := List.getElem?_eq_some_iff.mp h
  have hset := (List.set_perm_cons_eraseIdx hi b).cons l[i]
  have hback := (List.getElem_cons_eraseIdx_perm hi).cons b
  exact hset.trans ((List.Perm.swap _ _ _).trans hback)

/-- What the slots hold together changes by what one slot holds. -/
theorem flatMap_set_perm (f : α → List β) (h : l[i]? = some a) (b : α) :
    (f a ++ (l.set i b).flatMap f).Perm (f b ++ l.flatMap f) := by
  have hp := (set_perm h b).flatMap_right f
  rwa [List.flatMap_cons, List.flatMap_cons] at hp

/-- What a slot exchanges with a store, the store and the slots together keep. -/
theorem store_set_perm (f : α → List β) (h : l[i]? = some a) {store store' : List β}
    (hmove : (f a ++ store).Perm (f b ++ store')) :
    (store' ++ (l.set i b).flatMap f).Perm (store ++ l.flatMap f) := by
  rw [← List.perm_append_left_iff (f a)]
  calc f a ++ (store' ++ (l.set i b).flatMap f)
    _ ~ store' ++ (f a ++ (l.set i b).flatMap f) := by
      rw [← List.append_assoc, ← List.append_assoc]
      exact List.perm_append_comm.append_right _
    _ ~ store' ++ (f b ++ l.flatMap f) := (flatMap_set_perm f h b).append_left _
    _ ~ f b ++ store' ++ l.flatMap f := by
      rw [← List.append_assoc]
      exact List.perm_append_comm.append_right _
    _ ~ f a ++ store ++ l.flatMap f := hmove.symm.append_right _
    _ = f a ++ (store ++ l.flatMap f) := List.append_assoc ..

theorem count_set [DecidableEq α] (h : l[i]? = some a) (b x : α) :
    (l.set i b).count x + (if a = x then 1 else 0) = l.count x + (if b = x then 1 else 0) := by
  have hp := (set_perm h b).count_eq x
  simp only [List.count_cons, beq_iff_eq] at hp
  exact hp

theorem countP_set (p : α → Bool) (h : l[i]? = some a) (b : α) :
    (l.set i b).countP p + (if p a then 1 else 0) = l.countP p + (if p b then 1 else 0) := by
  have hp := (set_perm h b).countP_eq p
  rwa [List.countP_cons, List.countP_cons] at hp

theorem countP_eraseIdx (p : α → Bool) (h : l[i]? = some a) :
    (l.eraseIdx i).countP p + (if p a then 1 else 0) = l.countP p := by
  obtain ⟨hi, rfl⟩ := List.getElem?_eq_some_iff.mp h
  have hp := (List.getElem_cons_eraseIdx_perm hi).countP_eq p
  rwa [List.countP_cons] at hp

/-- A slot that a step of another thread leaves alone. -/
theorem getElem?_set_of_fixed (h : l[i]? = some a) (hx : l[j]? = some x) (hne : a ≠ x) (b : α) :
    (l.set i b)[j]? = some x := by
  have hij : i ≠ j := by
    rintro rfl
    rw [h] at hx
    exact hne (Option.some.inj hx)
  rw [List.getElem?_set_ne hij]
  exact hx

/-- What is in a slot, and is not what a step replaces, stays in it. -/
theorem mem_set_of_ne (h : l[i]? = some a) (hx : x ∈ l) (hne : x ≠ a) (b : α) : x ∈ l.set i b := by
  obtain ⟨j, hj⟩ := List.mem_iff_getElem?.mp hx
  exact List.mem_of_getElem? (getElem?_set_of_fixed h hj (Ne.symm hne) b)

end Slots
