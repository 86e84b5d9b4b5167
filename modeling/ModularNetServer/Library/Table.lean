import Mathlib.Data.List.Nodup

/-!
# Tables

A hash map as the function from its keys to the values it stores. Only look-ups are observable, so
two maps with the same entries are equal.
-/

/-- A map from keys to the values it stores. -/
abbrev Table (K V : Type*) := K → Option V

namespace Table

variable {K V : Type*}

/-- The empty map. -/
def empty : Table K V := fun _ => none

@[simp] theorem empty_apply (k : K) : (empty : Table K V) k = none := rfl

variable [DecidableEq K]

/-- `map[k] = v`. -/
def insert (t : Table K V) (k : K) (v : V) : Table K V := fun k' => if k' = k then some v else t k'

/-- The map that some entries make when they are stored one after the other. -/
def ofList (entries : List (K × V)) : Table K V := entries.foldl (fun t kv => t.insert kv.1 kv.2) empty

/-- `map.erase(k)`. -/
def erase (t : Table K V) (k : K) : Table K V := fun k' => if k' = k then none else t k'

@[simp] theorem insert_self (t : Table K V) (k : K) (v : V) : t.insert k v k = some v := by
  simp [insert]

theorem insert_of_ne (t : Table K V) {k k' : K} (h : k' ≠ k) (v : V) : t.insert k v k' = t k' := by
  simp [insert, h]

theorem insert_apply (t : Table K V) (k k' : K) (v : V) :
    t.insert k v k' = if k' = k then some v else t k' := rfl

@[simp] theorem erase_self (t : Table K V) (k : K) : t.erase k k = none := by simp [erase]

theorem erase_of_ne (t : Table K V) {k k' : K} (h : k' ≠ k) : t.erase k k' = t k' := by
  simp [erase, h]

theorem erase_apply (t : Table K V) (k k' : K) :
    t.erase k k' = if k' = k then none else t k' := rfl

/-- An entry that is left after an erasure was there, under another key. -/
theorem of_erase_eq_some {t : Table K V} {k k' : K} {v : V} (h : t.erase k k' = some v) :
    k' ≠ k ∧ t k' = some v := by
  by_cases hk : k' = k
  · simp [hk] at h
  · rw [erase_of_ne t hk] at h
    exact ⟨hk, h⟩

/-! ## Maps from their entries -/

theorem foldl_insert_isSome (entries : List (K × V)) (t : Table K V) (k : K) :
    (entries.foldl (fun t kv => t.insert kv.1 kv.2) t k).isSome = true ↔
      k ∈ entries.map Prod.fst ∨ (t k).isSome = true := by
  induction entries generalizing t with
  | nil => simp
  | cons kv entries ih =>
    rw [List.foldl_cons, ih, insert_apply, List.map_cons, List.mem_cons]
    by_cases hk : k = kv.1 <;> simp [hk]

/-- The keys of the map are the keys of the entries. -/
theorem ofList_isSome {entries : List (K × V)} {k : K} :
    (ofList entries k).isSome = true ↔ k ∈ entries.map Prod.fst := by
  unfold ofList
  rw [foldl_insert_isSome]
  simp

theorem foldl_insert_of_not_mem {entries : List (K × V)} {k : K} (h : k ∉ entries.map Prod.fst)
    (t : Table K V) : entries.foldl (fun t kv => t.insert kv.1 kv.2) t k = t k := by
  induction entries generalizing t with
  | nil => rfl
  | cons kv entries ih =>
    rw [List.map_cons, List.mem_cons, not_or] at h
    rw [List.foldl_cons, ih h.2, insert_of_ne _ h.1]

theorem foldl_insert_of_mem {entries : List (K × V)} (hkeys : (entries.map Prod.fst).Nodup) {kv : K × V}
    (h : kv ∈ entries) (t : Table K V) :
    entries.foldl (fun t kv => t.insert kv.1 kv.2) t kv.1 = some kv.2 := by
  induction entries generalizing t with
  | nil => cases h
  | cons kv' entries ih =>
    rw [List.map_cons, List.nodup_cons] at hkeys
    rw [List.foldl_cons]
    rcases List.mem_cons.mp h with rfl | h
    · rw [foldl_insert_of_not_mem hkeys.1, insert_self]
    · exact ih hkeys.2 h _

/-- The map has no entry but those that it is made from. -/
theorem mem_of_foldl_insert {entries : List (K × V)} {t : Table K V} {k : K} {v : V}
    (h : entries.foldl (fun t kv => t.insert kv.1 kv.2) t k = some v) : (k, v) ∈ entries ∨ t k = some v := by
  induction entries generalizing t with
  | nil => exact .inr h
  | cons kv entries ih =>
    rcases ih h with h | h
    · exact .inl (List.mem_cons_of_mem _ h)
    · dsimp only at h
      rw [insert_apply] at h
      split_ifs at h with hk
      · cases h
        rw [hk]
        exact .inl (List.mem_cons_self ..)
      · exact .inr h

theorem mem_of_ofList {entries : List (K × V)} {k : K} {v : V} (h : ofList entries k = some v) :
    (k, v) ∈ entries := by
  rcases mem_of_foldl_insert h with h | h
  · exact h
  · cases h

/-- Under different keys every entry is kept. -/
theorem ofList_of_mem {entries : List (K × V)} (hkeys : (entries.map Prod.fst).Nodup) {kv : K × V}
    (h : kv ∈ entries) : ofList entries kv.1 = some kv.2 := foldl_insert_of_mem hkeys h empty

/-! ## Going through a map -/

/-- The entries are those of the map, each of them once. -/
structure Lists (entries : List (K × V)) (t : Table K V) : Prop where
  keys : (entries.map Prod.fst).Nodup
  mem_iff : ∀ k v, (k, v) ∈ entries ↔ t k = some v

omit [DecidableEq K] in
theorem lists_empty : Lists ([] : List (K × V)) empty := ⟨List.nodup_nil, fun k v => by simp⟩

omit [DecidableEq K] in
/-- The order of the entries is left open. -/
theorem Lists.perm {entries entries' : List (K × V)} {t : Table K V} (h : Lists entries t)
    (hperm : entries'.Perm entries) : Lists entries' t where
  keys := (hperm.map Prod.fst).nodup_iff.mpr h.keys
  mem_iff := fun k v => (hperm.mem_iff).trans (h.mem_iff k v)

end Table
