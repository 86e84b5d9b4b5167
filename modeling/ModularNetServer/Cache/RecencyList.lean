import ModularNetServer.Cache.LRUCache
import Mathlib.Tactic.SplitIfs

/-!
# The recency list

What an LRU cache is for: a bounded association list in the order of the last successful `put` or `get`,
which drops the entry used least recently when there is no room.
-/

namespace ModularNetServer

variable {K V : Type*}

/-- Entries, the most recently used one first. -/
abbrev RecencyList (K V : Type*) := List (K × V)

namespace RecencyList

variable [DecidableEq K]

/-- The value of a key. -/
def lookup (l : RecencyList K V) (key : K) : Option V := (l.find? (fun e => e.1 = key)).map Prod.snd

/-- The entries of the other keys. -/
def without (l : RecencyList K V) (key : K) : RecencyList K V := l.filter (fun e => e.1 ≠ key)

/-- A key is updated and promoted, or inserted; the entry used least recently makes room. -/
def put (capacity : Nat) (l : RecencyList K V) (key : K) (value : V) : RecencyList K V :=
  if capacity = 0 then l
  else if (l.lookup key).isSome then (key, value) :: l.without key
  else (key, value) :: if capacity ≤ l.length then l.dropLast else l

/-- A hit is promoted. -/
def get (l : RecencyList K V) (key : K) (valueOut : V) : Bool × V × RecencyList K V :=
  match l.lookup key with
  | none => (false, valueOut, l)
  | some value => (true, value, (key, value) :: l.without key)

/-- A call, with what it shows. -/
def apply (capacity : Nat) (l : RecencyList K V) : CacheOp K V → CacheOutput V × RecencyList K V
  | .put key value => (.none, l.put capacity key value)
  | .get key valueOut =>
    let (hit, value, l) := l.get key valueOut
    (.got hit value, l)
  | .contains key => (.answer (l.lookup key).isSome, l)
  | .erase key => (.none, l.without key)
  | .clear => (.none, [])
  | .size => (.count l.length, l)

/-- A sequence of calls, with what they show. -/
def run (capacity : Nat) (l : RecencyList K V) :
    List (CacheOp K V) → List (CacheOutput V) × RecencyList K V
  | [] => ([], l)
  | op :: ops =>
    ((l.apply capacity op).1 :: (run capacity (l.apply capacity op).2 ops).1,
      (run capacity (l.apply capacity op).2 ops).2)

/-! ## Look-ups -/

variable {l : RecencyList K V} {key key' : K} {value value' : V}

@[simp] theorem lookup_nil (key : K) : lookup ([] : RecencyList K V) key = none := rfl

theorem lookup_cons (key' : K) (value : V) (l : RecencyList K V) (key : K) :
    lookup ((key', value) :: l) key = if key' = key then some value else l.lookup key := by
  unfold lookup
  rw [List.find?_cons]
  split_ifs with h
  · simp [h]
  · simp [h]

theorem lookup_without (l : RecencyList K V) (key key' : K) :
    (l.without key).lookup key' = if key' = key then none else l.lookup key' := by
  induction l with
  | nil => simp [without]
  | cons e l ih =>
    obtain ⟨k, v⟩ := e
    unfold without at ih ⊢
    rw [List.filter_cons, lookup_cons]
    by_cases hk : k = key
    · subst hk
      simp only [ne_eq, not_true_eq_false, decide_false, Bool.false_eq_true, if_false, ih]
      split_ifs with h1 h2
      · rfl
      · exact absurd h2.symm h1
      · rfl
    · simp only [ne_eq, hk, not_false_eq_true, decide_true, if_true, lookup_cons, ih]
      split_ifs with h1 h2
      · exact absurd (h1.trans h2) hk
      · rfl
      · rfl
      · rfl

theorem mem_of_lookup (h : l.lookup key = some value) : (key, value) ∈ l := by
  unfold lookup at h
  obtain ⟨e, he, rfl⟩ := Option.map_eq_some_iff.mp h
  have hkey : e.1 = key := by simpa using List.find?_some he
  rw [← hkey]
  exact List.mem_of_find?_eq_some he

theorem without_of_lookup_none (h : l.lookup key = none) : l.without key = l := by
  apply List.filter_eq_self.mpr
  intro e he
  unfold lookup at h
  have hne := List.find?_eq_none.mp (Option.map_eq_none_iff.mp h) e he
  simpa using hne

theorem lookup_dropLast (h : lookup l.dropLast key = some value) : l.lookup key = some value := by
  induction l with
  | nil => exact h
  | cons e l ih =>
    obtain ⟨k, v⟩ := e
    cases l with
    | nil => cases h
    | cons e' l =>
      rw [List.dropLast_cons_of_ne_nil (by simp), lookup_cons] at h
      rw [lookup_cons]
      split_ifs at h ⊢ with hk
      · exact h
      · exact ih h

/-- What is found after a `put` was put or was there. -/
theorem lookup_put {capacity : Nat} (h : (l.put capacity key value).lookup key' = some value') :
    key' = key ∧ value' = value ∨ key' ≠ key ∧ l.lookup key' = some value' ∨
      capacity = 0 ∧ l.lookup key' = some value' := by
  unfold put at h
  split_ifs at h with h0 hkey hfull
  · exact .inr (.inr ⟨h0, h⟩)
  · rw [lookup_cons, lookup_without] at h
    split_ifs at h with h1 h2
    · exact .inl ⟨h1.symm, (Option.some.inj h).symm⟩
    · exact .inr (.inl ⟨Ne.symm h1, h⟩)
  · rw [lookup_cons] at h
    split_ifs at h with h1
    · exact .inl ⟨h1.symm, (Option.some.inj h).symm⟩
    · exact .inr (.inl ⟨Ne.symm h1, lookup_dropLast h⟩)
  · rw [lookup_cons] at h
    split_ifs at h with h1
    · exact .inl ⟨h1.symm, (Option.some.inj h).symm⟩
    · exact .inr (.inl ⟨Ne.symm h1, h⟩)

/-- What was put is found. -/
theorem lookup_put_self {capacity : Nat} (h0 : capacity ≠ 0) (l : RecencyList K V) (key : K) (value : V) :
    lookup (l.put capacity key value) key = some value := by
  unfold put
  rw [if_neg h0]
  split_ifs <;> rw [lookup_cons, if_pos rfl]

/-- A `get` moves an entry and changes none. -/
theorem lookup_get (l : RecencyList K V) (key : K) (valueOut : V) (key' : K) :
    lookup (l.get key valueOut).2.2 key' = l.lookup key' := by
  unfold get
  split
  · rfl
  · rename_i value hl
    rw [lookup_cons, lookup_without]
    split_ifs with h1 h2
    · rw [← h1, hl]
    · exact absurd h2.symm h1
    · rfl

/-- The entries are entries of a table. -/
def Within (l : RecencyList K V) (t : Table K V) : Prop :=
  ∀ key value, l.lookup key = some value → t key = some value

end RecencyList

end ModularNetServer
