import ModularNetServer.Cache.Proofs.LRUCacheProofs

/-!
# Inclusion of caches

Two caches that get the same calls. The one of the smaller capacity never holds an entry that the other has
dropped: a key that only the larger one has is one that the smaller one had no room for, so that the larger
one is not full before the smaller one is.
-/

namespace ModularNetServer

variable {K V : Type*} [DecidableEq K] {l l' : RecencyList K V} {key : K} {value : V} {c c' : Nat}

/-- A hit of a call is a hit of another one, with the same value. -/
def CacheOutput.HitsIn : CacheOutput V → CacheOutput V → Prop
  | .got true value, out => out = .got true value
  | .answer true, out => out = .answer true
  | _, _ => True

namespace RecencyList

/-- The entries of a cache: no key twice, and no more than there is room for. -/
structure Bounded (capacity : Nat) (l : RecencyList K V) : Prop where
  keys : (l.map Prod.fst).Nodup
  length_le : l.length ≤ capacity

/-- The entries of the smaller cache are entries of the larger one, in the same order, and the larger one
    has no more entries that the smaller one lacks than its capacity exceeds the other. -/
structure Includes (c c' : Nat) (l l' : RecencyList K V) : Prop where
  entries : l.Sublist l'
  room : l'.length + c ≤ l.length + c'

/-! ## Look-ups -/

theorem lookup_of_mem (hl : (l.map Prod.fst).Nodup) (h : (key, value) ∈ l) : l.lookup key = some value := by
  induction l with
  | nil => cases h
  | cons e l ih =>
    obtain ⟨k, v⟩ := e
    rw [List.map_cons, List.nodup_cons] at hl
    rw [lookup_cons]
    rcases List.mem_cons.mp h with heq | hmem
    · cases heq
      rw [if_pos rfl]
    · have hne : k ≠ key := by
        rintro rfl
        exact hl.1 (List.mem_map.mpr ⟨_, hmem, rfl⟩)
      rw [if_neg hne]
      exact ih hl.2 hmem

theorem lookup_sublist (hl : (l'.map Prod.fst).Nodup) (h : l.Sublist l') (hkey : l.lookup key = some value) :
    l'.lookup key = some value :=
  lookup_of_mem hl (h.subset (mem_of_lookup hkey))

/-- The entries without those of a key that they do not have. -/
theorem sublist_without (h : l.Sublist l') (hkey : l.lookup key = none) : l.Sublist (l'.without key) := by
  have hfilter := h.filter (fun e => e.1 ≠ key)
  rwa [show l.filter (fun e => e.1 ≠ key) = l from without_of_lookup_none hkey] at hfilter

theorem length_without (hl : (l.map Prod.fst).Nodup) (h : l.lookup key = some value) :
    (l.without key).length + 1 = l.length := by
  induction l with
  | nil => cases h
  | cons e l ih =>
    obtain ⟨k, v⟩ := e
    rw [List.map_cons, List.nodup_cons] at hl
    rw [lookup_cons] at h
    by_cases hk : k = key
    · subst hk
      have hnone : lookup l k = none := by
        rw [Option.eq_none_iff_forall_ne_some]
        intro w hw
        exact hl.1 (List.mem_map.mpr ⟨_, mem_of_lookup hw, rfl⟩)
      have hrest := without_of_lookup_none hnone
      unfold without at hrest ⊢
      rw [List.filter_cons_of_neg (by simp), hrest, List.length_cons]
    · rw [if_neg hk] at h
      have hrest := ih hl.2 h
      unfold without at hrest ⊢
      rw [List.filter_cons_of_pos (by simpa using hk), List.length_cons, List.length_cons, hrest]

theorem dropLast_sublist_dropLast {α : Type*} {l l' : List α} (h : l.Sublist l') :
    l.dropLast.Sublist l'.dropLast := by
  rw [← List.reverse_sublist, ← List.tail_reverse, ← List.tail_reverse]
  exact (List.reverse_sublist.mpr h).tail

theorem put_length_le (hl : l.Bounded c) (key : K) (value : V) : (l.put c key value).length ≤ c := by
  have hle := hl.length_le
  unfold put
  split_ifs with h0 hkey hfull
  · exact hle
  · obtain ⟨w, hw⟩ := Option.isSome_iff_exists.mp hkey
    have hwithout := length_without hl.keys hw
    rw [List.length_cons]
    omega
  · rw [List.length_cons, List.length_dropLast]
    omega
  · rw [List.length_cons]
    omega

/-! ## Calls -/

namespace Includes

theorem put (hle : c ≤ c') (hl : l.Bounded c) (hl' : l'.Bounded c') (h : Includes c c' l l') (key : K)
    (value : V) : Includes c c' (l.put c key value) (l'.put c' key value) := by
  have hsize := hl.length_le
  have hroom := h.room
  by_cases h0 : c = 0
  · -- the smaller cache holds nothing
    have hsize' := put_length_le hl' key value
    obtain rfl : l = [] := List.length_eq_zero_iff.mp (by omega)
    have hnil : RecencyList.put c ([] : RecencyList K V) key value = [] := if_pos h0
    rw [hnil]
    refine ⟨List.nil_sublist _, ?_⟩
    rw [List.length_nil]
    omega
  · have h0' : c' ≠ 0 := by omega
    unfold RecencyList.put
    rw [if_neg h0, if_neg h0']
    cases hkey : l.lookup key with
    | some w =>
      have hkey' := lookup_sublist hl'.keys h.entries hkey
      have hwithout := length_without hl.keys hkey
      have hwithout' := length_without hl'.keys hkey'
      rw [hkey', Option.isSome_some, if_pos rfl, if_pos rfl]
      refine ⟨(h.entries.filter _).cons_cons _, ?_⟩
      rw [List.length_cons, List.length_cons]
      omega
    | none =>
      rw [Option.isSome_none, if_neg Bool.false_ne_true]
      cases hkey' : l'.lookup key with
      | some w =>
        -- the larger cache still has what the smaller one has dropped
        have hwithout' := length_without hl'.keys hkey'
        have hsub := sublist_without h.entries hkey
        rw [Option.isSome_some, if_pos rfl]
        split_ifs with hfull
        · refine ⟨((List.dropLast_sublist l).trans hsub).cons_cons _, ?_⟩
          rw [List.length_cons, List.length_cons, List.length_dropLast]
          omega
        · refine ⟨hsub.cons_cons _, ?_⟩
          rw [List.length_cons, List.length_cons]
          omega
      | none =>
        rw [Option.isSome_none, if_neg Bool.false_ne_true]
        split_ifs with hfull hfull'
        · refine ⟨(dropLast_sublist_dropLast h.entries).cons_cons _, ?_⟩
          rw [List.length_cons, List.length_cons, List.length_dropLast, List.length_dropLast]
          omega
        · refine ⟨((List.dropLast_sublist l).trans h.entries).cons_cons _, ?_⟩
          rw [List.length_cons, List.length_cons, List.length_dropLast]
          omega
        · -- the larger cache is not full before the smaller one
          omega
        · refine ⟨h.entries.cons_cons _, ?_⟩
          rw [List.length_cons, List.length_cons]
          omega

theorem get (hl : l.Bounded c) (hl' : l'.Bounded c') (h : Includes c c' l l') (key : K) (valueOut : V) :
    Includes c c' (l.get key valueOut).2.2 (l'.get key valueOut).2.2 ∧
      ((l.get key valueOut).1 = true →
        (l'.get key valueOut).1 = true ∧ (l'.get key valueOut).2.1 = (l.get key valueOut).2.1) := by
  have hroom := h.room
  unfold RecencyList.get
  cases hkey : l.lookup key with
  | some value =>
    have hkey' := lookup_sublist hl'.keys h.entries hkey
    have hwithout := length_without hl.keys hkey
    have hwithout' := length_without hl'.keys hkey'
    rw [hkey']
    refine ⟨⟨(h.entries.filter _).cons_cons _, ?_⟩, fun _ => ⟨rfl, rfl⟩⟩
    rw [List.length_cons, List.length_cons]
    omega
  | none =>
    refine ⟨?_, fun hit => absurd hit Bool.false_ne_true⟩
    cases hkey' : l'.lookup key with
    | none => exact h
    | some value =>
      have hwithout' := length_without hl'.keys hkey'
      refine ⟨(sublist_without h.entries hkey).cons _, ?_⟩
      dsimp only
      rw [List.length_cons]
      omega

theorem erase (hl : l.Bounded c) (hl' : l'.Bounded c') (h : Includes c c' l l') (key : K) :
    Includes c c' (l.without key) (l'.without key) := by
  have hroom := h.room
  refine ⟨h.entries.filter _, ?_⟩
  cases hkey : l.lookup key with
  | some value =>
    have hwithout := length_without hl.keys hkey
    have hwithout' := length_without hl'.keys (lookup_sublist hl'.keys h.entries hkey)
    omega
  | none =>
    rw [without_of_lookup_none hkey]
    have hle' : (l'.without key).length ≤ l'.length := List.length_filter_le _ _
    omega

/-- A call keeps the inclusion, and its hit on the smaller cache is one on the larger cache. -/
theorem apply (hle : c ≤ c') (hl : l.Bounded c) (hl' : l'.Bounded c') (h : Includes c c' l l')
    (op : CacheOp K V) :
    Includes c c' (l.apply c op).2 (l'.apply c' op).2 ∧ (l.apply c op).1.HitsIn (l'.apply c' op).1 := by
  cases op with
  | put key value => exact ⟨h.put hle hl hl' key value, trivial⟩
  | get key valueOut =>
    obtain ⟨hget, hhit⟩ := h.get hl hl' key valueOut
    refine ⟨hget, ?_⟩
    simp only [RecencyList.apply]
    cases hfound : (l.get key valueOut).1 with
    | false => trivial
    | true =>
      obtain ⟨hfound', hvalue⟩ := hhit hfound
      rw [hfound', hvalue]
      rfl
  | contains key =>
    refine ⟨h, ?_⟩
    simp only [RecencyList.apply]
    cases hkey : l.lookup key with
    | none => trivial
    | some value =>
      rw [lookup_sublist hl'.keys h.entries hkey]
      rfl
  | erase key => exact ⟨h.erase hl hl' key, trivial⟩
  | clear =>
    refine ⟨⟨List.nil_sublist _, ?_⟩, trivial⟩
    show 0 + c ≤ 0 + c'
    omega
  | size => exact ⟨h, trivial⟩

end Includes

end RecencyList

namespace LRUCache

variable {s s' : LRUCache K V}

omit [DecidableEq K] in
theorem Corresponds.bounded (h : s.Corresponds) : s.entries.Bounded s.capacity := by
  constructor
  · have hkeys : s.entries.map Prod.fst = s.items.map CacheNode.key := by
      simp only [entries, List.map_map]
      rfl
    rw [hkeys]
    exact h.keys
  · rw [entries, List.length_map]
    exact h.size

/-- The same calls on a cache and on one that includes it. -/
theorem run_keeps_inclusion (hle : s.capacity ≤ s'.capacity) (hs : s.Corresponds) (hs' : s'.Corresponds)
    (h : RecencyList.Includes s.capacity s'.capacity s.entries s'.entries) (ops : List (CacheOp K V)) :
    RecencyList.Includes s.capacity s'.capacity (s.run ops).2.entries (s'.run ops).2.entries ∧
      List.Forall₂ CacheOutput.HitsIn (s.run ops).1 (s'.run ops).1 := by
  induction ops generalizing s s' with
  | nil => exact ⟨h, .nil⟩
  | cons op ops ih =>
    obtain ⟨hc, hcap, he⟩ := hs.apply op
    obtain ⟨hc', hcap', he'⟩ := hs'.apply op
    obtain ⟨hkept, hhit⟩ := h.apply hle hs.bounded hs'.bounded op
    rw [← he, ← he'] at hkept hhit
    rw [← hcap, ← hcap'] at hkept hle ⊢
    obtain ⟨hrun, hhits⟩ := ih hle hc hc' hkept
    exact ⟨hrun, .cons hhit hhits⟩

/-- Inclusion: after every sequence of calls on two new caches the entries of the one with the smaller
    capacity are entries of the other, with the same values and in the same order of recency, and every hit
    of the first has been a hit of the second, with the same value. -/
theorem run_includes {c c' : Nat} (hle : c ≤ c') (ops : List (CacheOp K V)) :
    ((make c).run ops).2.entries.Sublist ((make c').run ops).2.entries ∧
      (∀ key value, ((make c).run ops).2.entries.lookup key = some value →
        ((make c').run ops).2.entries.lookup key = some value) ∧
      List.Forall₂ CacheOutput.HitsIn ((make c).run ops).1 ((make c').run ops).1 := by
  have hstart : RecencyList.Includes c c' (make c : LRUCache K V).entries (make c').entries := by
    refine ⟨List.nil_sublist _, ?_⟩
    show 0 + c ≤ 0 + c'
    omega
  obtain ⟨hincludes, hhits⟩ :=
    @run_keeps_inclusion _ _ _ (make c) (make c') hle (corresponds_make c) (corresponds_make c') hstart ops
  refine ⟨hincludes.entries, ?_, hhits⟩
  intro key value hkey
  have hkeys := ((corresponds_make (K := K) (V := V) c').run ops).1.bounded.keys
  exact RecencyList.lookup_sublist hkeys hincludes.entries hkey

theorem run_includes_three :
    ((make 2).run [.put 1 'a', .put 2 'b', .put 3 'c', .get 1 'z', .erase 3]).2.entries.Sublist
        ((make 3).run [.put 1 'a', .put 2 'b', .put 3 'c', .get 1 'z', .erase 3]).2.entries ∧
      (∀ key value,
        ((make 2).run [.put 1 'a', .put 2 'b', .put 3 'c', .get 1 'z', .erase 3]).2.entries.lookup key =
            some value →
          ((make 3).run [.put 1 'a', .put 2 'b', .put 3 'c', .get 1 'z', .erase 3]).2.entries.lookup key =
            some value) ∧
      List.Forall₂ CacheOutput.HitsIn
        ((make 2).run [.put 1 'a', .put 2 'b', .put 3 'c', .get 1 'z', .erase 3]).1
        ((make 3).run [.put 1 'a', .put 2 'b', .put 3 'c', .get 1 'z', .erase 3]).1 :=
  run_includes (by decide) _

end LRUCache

end ModularNetServer
