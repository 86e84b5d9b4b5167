import ModularNetServer.Library.Table

/-!
# Two tables over the same keys

A table of values beside a table that gives each key a handle of its own.
-/

namespace Table

variable {K V T : Type*} {values : Table K V} {handles : Table K T}

/-- The tables have the same keys, and no two keys share a handle. -/
structure Paired (values : Table K V) (handles : Table K T) : Prop where
  keys : ∀ k, (values k).isSome = (handles k).isSome
  distinct : ∀ k k' x, handles k = some x → handles k' = some x → k = k'

theorem paired_empty : Paired (empty : Table K V) (empty : Table K T) where
  keys := fun _ => rfl
  distinct := fun _ _ _ h => by cases h

variable [DecidableEq K]

/-- A key gets a value and a handle: the handle must not be that of another key. -/
theorem Paired.insert_iff (h : Paired values handles) (k : K) (v : V) (x : T) :
    Paired (values.insert k v) (handles.insert k x) ↔ ∀ k', handles k' = some x → k' = k := by
  constructor
  · intro hp k' hk'
    by_contra hne
    exact hne (hp.distinct k' k x (by rw [insert_of_ne _ hne, hk']) (insert_self _ _ _))
  · intro hfresh
    refine ⟨?_, ?_⟩
    · intro k'
      simp only [insert_apply]
      split_ifs
      · rfl
      · exact h.keys k'
    · intro k1 k2 y h1 h2
      simp only [insert_apply] at h1 h2
      split_ifs at h1 h2 with hk1 hk2 hk2
      · rw [hk1, hk2]
      · cases h1
        rw [hk1, hfresh k2 h2]
      · cases h2
        rw [hk2, hfresh k1 h1]
      · exact h.distinct k1 k2 y h1 h2

/-- A key that has a value gets another one. -/
theorem Paired.replace (h : Paired values handles) {k : K} (hk : (values k).isSome = true) (v : V) :
    Paired (values.insert k v) handles := by
  refine ⟨?_, h.distinct⟩
  intro k'
  rw [insert_apply]
  split_ifs with hkk
  · rw [hkk, ← h.keys k, hk]
    rfl
  · exact h.keys k'

theorem Paired.erase (h : Paired values handles) (k : K) : Paired (values.erase k) (handles.erase k) := by
  refine ⟨?_, ?_⟩
  · intro k'
    simp only [erase_apply]
    split_ifs
    · rfl
    · exact h.keys k'
  · intro k1 k2 y h1 h2
    exact h.distinct k1 k2 y (of_erase_eq_some h1).2 (of_erase_eq_some h2).2

/-- A key without a value must not get a handle. -/
theorem not_paired_insert {k : K} (hk : (values k).isSome = false) (x : T) :
    ¬ Paired values (handles.insert k x) := by
  intro h
  have hkeys := h.keys k
  rw [hk, insert_self] at hkeys
  cases hkeys

/-- Every handle is below a bound. -/
def Below (handles : Table K Int) (bound : Int) : Prop := ∀ k x, handles k = some x → x < bound

theorem Below.insert_lt {handles : Table K Int} {bound x : Int} (h : Below handles bound) (k : K)
    (hx : x < bound) : Below (handles.insert k x) bound := by
  intro k' y hy
  rw [insert_apply] at hy
  split_ifs at hy
  · cases hy
    exact hx
  · exact h k' y hy

/-- The bound is handed out as a handle and moves on. -/
theorem Below.insert {handles : Table K Int} {bound : Int} (h : Below handles bound) (k : K) :
    Below (handles.insert k bound) (bound + 1) :=
  insert_lt (fun k' x hx => Int.lt_of_lt_of_le (h k' x hx) (by omega)) k (by omega)

theorem Below.erase {handles : Table K Int} {bound : Int} (h : Below handles bound) (k : K) :
    Below (handles.erase k) bound := fun k' x hx => h k' x (of_erase_eq_some hx).2

end Table
