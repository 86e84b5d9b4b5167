import ModularNetServer.Cache.RecencyList
import Mathlib.Data.List.Nodup
import Mathlib.Data.List.Induction

/-!
# The LRU cache is a recency list

`Corresponds` says that the index points at exactly the nodes of the list. It makes the search for an
iterator a search for a key, so that each operation does to the entries what the recency list does.
-/

namespace ModularNetServer

namespace LRUCache

variable {K V : Type*} {c : LRUCache K V} {key : K} {it : Nat}

/-- The list and the index correspond: addresses tell nodes apart, the index has exactly the nodes of the
    list, each under its key, and the list is not longer than the capacity. -/
structure Corresponds (c : LRUCache K V) : Prop where
  addrs : (c.items.map CacheNode.addr).Nodup
  fresh : ∀ n ∈ c.items, n.addr < c.nextAddr
  index : ∀ key it, c.index key = some it ↔ ∃ n ∈ c.items, n.key = key ∧ n.addr = it
  size : c.items.length ≤ c.capacity

theorem corresponds_make (capacity : Nat) : (make capacity : LRUCache K V).Corresponds where
  addrs := List.nodup_nil
  fresh := by simp [make]
  index := by simp [make]
  size := Nat.zero_le _

theorem corresponds_clear (c : LRUCache K V) : c.clear.Corresponds where
  addrs := List.nodup_nil
  fresh := by simp [clear]
  index := by simp [clear]
  size := Nat.zero_le _

/-- The entries of the list. -/
def entries (c : LRUCache K V) : RecencyList K V := c.items.map (fun n => (n.key, n.value))

namespace Corresponds

theorem eq_of_addr (h : c.Corresponds) {n n' : CacheNode K V} (hn : n ∈ c.items) (hn' : n' ∈ c.items)
    (heq : n.addr = n'.addr) : n = n' :=
  List.inj_on_of_nodup_map h.addrs hn hn' heq

theorem index_of_mem (h : c.Corresponds) {n : CacheNode K V} (hn : n ∈ c.items) :
    c.index n.key = some n.addr := (h.index n.key n.addr).mpr ⟨n, hn, rfl, rfl⟩

/-- Every key has one node. -/
theorem keys (h : c.Corresponds) : (c.items.map CacheNode.key).Nodup := by
  have hitems := List.Nodup.of_map _ h.addrs
  refine List.Nodup.map_on ?_ hitems
  intro n hn n' hn' hk
  have hi := h.index_of_mem hn
  rw [hk, h.index_of_mem hn'] at hi
  exact h.eq_of_addr hn hn' (Option.some.inj hi).symm

/-- The node of an iterator in the index is the one with the key. -/
theorem addr_iff (h : c.Corresponds) (hi : c.index key = some it) {n : CacheNode K V}
    (hn : n ∈ c.items) : n.addr = it ↔ n.key = key := by
  constructor
  · intro ha
    obtain ⟨n', hn', hk, ha'⟩ := (h.index key it).mp hi
    rw [h.eq_of_addr hn hn' (ha.trans ha'.symm), hk]
  · intro hk
    have hi' := h.index_of_mem hn
    rw [hk, hi] at hi'
    exact (Option.some.inj hi').symm

theorem node_of_index (h : c.Corresponds) (hi : c.index key = some it) :
    ∃ n, c.node it = some n ∧ n ∈ c.items ∧ n.key = key ∧ n.addr = it := by
  obtain ⟨n, hn, hk, ha⟩ := (h.index key it).mp hi
  unfold node
  cases hf : c.items.find? (fun n => n.addr = it) with
  | none =>
    have := List.find?_eq_none.mp hf n hn
    simp [ha] at this
  | some n' =>
    have ha' : n'.addr = it := by simpa using List.find?_some hf
    have hn' := List.mem_of_find?_eq_some hf
    exact ⟨n', rfl, hn', (h.addr_iff hi hn').mp ha', ha'⟩

end Corresponds

/-! ## Moving a node to the front -/

namespace Corresponds

/-- The same nodes in another order. -/
theorem reorder (h : c.Corresponds) {items : List (CacheNode K V)} (hp : items.Perm c.items) :
    ({ c with items := items } : LRUCache K V).Corresponds where
  addrs := (hp.map _).nodup_iff.mpr h.addrs
  fresh := fun n hn => h.fresh n (hp.subset hn)
  index := by
    intro key it
    rw [h.index key it]
    exact exists_congr (fun n => and_congr_left (fun _ => hp.mem_iff.symm))
  size := by
    show items.length ≤ c.capacity
    rw [hp.length_eq]
    exact h.size

/-- A node and the others. -/
theorem cons_eraseNode (h : c.Corresponds) {n : CacheNode K V} (hn : n ∈ c.items) :
    (n :: (c.eraseNode n.addr).items).Perm c.items := by
  have hitems := List.Nodup.of_map _ h.addrs
  apply (List.perm_ext_iff_of_nodup ?_ hitems).mpr
  · intro n'
    simp only [eraseNode, List.mem_cons, List.mem_filter, decide_eq_true_eq, ne_eq]
    constructor
    · rintro (rfl | ⟨hn', -⟩)
      · exact hn
      · exact hn'
    · intro hn'
      by_cases ha : n'.addr = n.addr
      · exact .inl (h.eq_of_addr hn' hn ha)
      · exact .inr ⟨hn', ha⟩
  · refine List.nodup_cons.mpr ⟨?_, hitems.filter _⟩
    simp [eraseNode]

theorem splice (h : c.Corresponds) (hi : c.index key = some it) : (c.splice it).Corresponds := by
  obtain ⟨n, hnode, hn, -, ha⟩ := h.node_of_index hi
  unfold LRUCache.splice
  rw [hnode, ← ha]
  exact h.reorder (h.cons_eraseNode hn)

theorem setValue (h : c.Corresponds) (it : Nat) (value : V) : (c.setValue it value).Corresponds := by
  have haddr : (c.setValue it value).items.map CacheNode.addr = c.items.map CacheNode.addr := by
    simp only [LRUCache.setValue, List.map_map]
    apply List.map_congr_left
    intro n _
    simp only [Function.comp]
    split <;> rfl
  have hmem : ∀ n' ∈ (c.setValue it value).items, ∃ n ∈ c.items, n'.key = n.key ∧ n'.addr = n.addr := by
    intro n' hn'
    obtain ⟨n, hn, rfl⟩ := List.mem_map.mp hn'
    refine ⟨n, hn, ?_⟩
    split <;> exact ⟨rfl, rfl⟩
  have hmem' : ∀ n ∈ c.items, ∃ n' ∈ (c.setValue it value).items, n'.key = n.key ∧ n'.addr = n.addr := by
    intro n hn
    refine ⟨_, List.mem_map_of_mem hn, ?_⟩
    split <;> exact ⟨rfl, rfl⟩
  refine ⟨?_, ?_, ?_, ?_⟩
  · rw [haddr]
    exact h.addrs
  · intro n' hn'
    obtain ⟨n, hn, -, ha⟩ := hmem n' hn'
    rw [ha]
    exact h.fresh n hn
  · intro key it'
    rw [show (c.setValue it value).index key = c.index key from rfl, h.index key it']
    constructor
    · rintro ⟨n, hn, hk, ha⟩
      obtain ⟨n', hn', hk', ha'⟩ := hmem' n hn
      exact ⟨n', hn', hk'.trans hk, ha'.trans ha⟩
    · rintro ⟨n', hn', hk, ha⟩
      obtain ⟨n, hn, hk', ha'⟩ := hmem n' hn'
      exact ⟨n, hn, hk'.symm.trans hk, ha'.symm.trans ha⟩
  · simpa [LRUCache.setValue] using h.size

theorem splice_capacity (c : LRUCache K V) (it : Nat) : (c.splice it).capacity = c.capacity := by
  unfold LRUCache.splice
  split <;> rfl

/-- The node with a new value. -/
theorem node_setValue (it : Nat) (value : V) {n : CacheNode K V} (hnode : c.node it = some n) :
    (c.setValue it value).node it = some { n with value := value } := by
  have ha : n.addr = it := by simpa using List.find?_some hnode
  unfold node LRUCache.setValue at *
  rw [List.find?_map]
  have hp : (fun n : CacheNode K V => decide (n.addr = it)) ∘
      (fun n => if n.addr = it then { n with value := value } else n) =
      fun n => decide (n.addr = it) := by
    funext n
    simp only [Function.comp]
    split <;> rfl
  rw [hp, hnode]
  simp [ha]

end Corresponds

variable [DecidableEq K]

namespace Corresponds

/-! ## Entries -/

theorem lookup_of_index (h : c.Corresponds) (hi : c.index key = some it) {n : CacheNode K V}
    (hnode : c.node it = some n) : c.entries.lookup key = some n.value := by
  obtain ⟨n₁, hnode₁, hn, hk, -⟩ := h.node_of_index hi
  rw [hnode] at hnode₁
  cases hnode₁
  unfold RecencyList.lookup entries
  rw [List.find?_map]
  cases hf : c.items.find? ((fun e => decide (e.1 = key)) ∘ fun n => (n.key, n.value)) with
  | none =>
    have := List.find?_eq_none.mp hf n hn
    simp [hk] at this
  | some n' =>
    have hk' : n'.key = key := by simpa using List.find?_some hf
    have hn' := List.mem_of_find?_eq_some hf
    have ha := (h.addr_iff hi hn').mpr hk'
    have ha' := (h.addr_iff hi hn).mpr hk
    rw [h.eq_of_addr hn' hn (ha.trans ha'.symm)]
    rfl

theorem lookup_of_index_none (h : c.Corresponds) (hi : c.index key = none) :
    c.entries.lookup key = none := by
  unfold RecencyList.lookup entries
  rw [Option.map_eq_none_iff, List.find?_eq_none]
  intro e he
  obtain ⟨n, hn, rfl⟩ := List.mem_map.mp he
  intro hk
  have hk : n.key = key := by simpa using hk
  have hi' := h.index_of_mem hn
  rw [hk, hi] at hi'
  cases hi'

/-- A cache without capacity holds nothing. -/
theorem lookup_of_capacity_zero (h : c.Corresponds) (h0 : c.capacity = 0) (key : K) :
    c.entries.lookup key = none := by
  have hsize := h.size
  have hnil : c.items = [] := List.length_eq_zero_iff.mp (by omega)
  simp [entries, hnil]

theorem lookup_isSome (h : c.Corresponds) (key : K) :
    (c.entries.lookup key).isSome = (c.index key).isSome := by
  cases hi : c.index key with
  | none =>
    rw [h.lookup_of_index_none hi]
    rfl
  | some it =>
    obtain ⟨n, hnode, -⟩ := h.node_of_index hi
    rw [h.lookup_of_index hi hnode]
    rfl

theorem entries_eraseNode (h : c.Corresponds) (hi : c.index key = some it) :
    (c.eraseNode it).entries = c.entries.without key := by
  unfold entries eraseNode RecencyList.without
  rw [List.filter_map]
  congr 1
  apply List.filter_congr
  intro n hn
  simp [h.addr_iff hi hn]

theorem entries_splice (h : c.Corresponds) (hi : c.index key = some it) {n : CacheNode K V}
    (hnode : c.node it = some n) :
    (c.splice it).entries = (key, n.value) :: c.entries.without key ∧ (c.splice it).node it = some n := by
  obtain ⟨n₁, hnode₁, hn, hk, ha⟩ := h.node_of_index hi
  rw [hnode] at hnode₁
  cases hnode₁
  unfold LRUCache.splice
  rw [hnode]
  constructor
  · rw [← h.entries_eraseNode hi]
    simp [entries, hk]
  · simp [node, ha]

/-! ## The operations -/

theorem eraseNode (h : c.Corresponds) (hi : c.index key = some it) :
    ({ c.eraseNode it with index := c.index.erase key } : LRUCache K V).Corresponds where
  addrs := h.addrs.sublist (List.filter_sublist.map _)
  fresh := fun n hn => h.fresh n (List.mem_of_mem_filter hn)
  index := by
    intro key' it'
    show c.index.erase key key' = some it' ↔ ∃ n ∈ (c.eraseNode it).items, n.key = key' ∧ n.addr = it'
    simp only [LRUCache.eraseNode, List.mem_filter, decide_eq_true_eq, ne_eq]
    constructor
    · intro he
      obtain ⟨hne, hidx⟩ := Table.of_erase_eq_some he
      obtain ⟨n, hn, hk, ha⟩ := (h.index key' it').mp hidx
      refine ⟨n, ⟨hn, ?_⟩, hk, ha⟩
      intro hit
      exact hne (hk.symm.trans ((h.addr_iff hi hn).mp hit))
    · rintro ⟨n, ⟨hn, hit⟩, rfl, rfl⟩
      have hne : n.key ≠ key := fun hk => hit ((h.addr_iff hi hn).mpr hk)
      rw [Table.erase_of_ne _ hne]
      exact h.index_of_mem hn
  size := Nat.le_trans (List.length_filter_le _ _) h.size

/-- A new value does not change the other entries. -/
theorem without_setValue (h : c.Corresponds) (hi : c.index key = some it) (value : V) :
    (c.setValue it value).entries.without key = c.entries.without key := by
  rw [← (h.setValue it value).entries_eraseNode (show (c.setValue it value).index key = some it from hi),
    ← h.entries_eraseNode hi]
  have hkeep : (c.setValue it value).eraseNode it = c.eraseNode it := by
    unfold LRUCache.eraseNode LRUCache.setValue
    congr 1
    induction c.items with
    | nil => rfl
    | cons n items ih =>
      by_cases ha : n.addr = it
      · simpa [ha] using ih
      · simpa [ha] using ih
  rw [hkeep]

/-- Dropping the last entry of a list that is not empty. -/
theorem evict (h : c.Corresponds) (hne : c.items ≠ []) :
    c.evict.Corresponds ∧ c.evict.entries = c.entries.dropLast ∧ c.evict.capacity = c.capacity ∧
      c.evict.items.length + 1 = c.items.length ∧ ∀ key, c.index key = none → c.evict.index key = none := by
  obtain ⟨last, hlast⟩ := Option.ne_none_iff_exists'.mp (fun hn => hne (List.getLast?_eq_none_iff.mp hn))
  have hitems := List.dropLast_append_getLast? last hlast
  have hmem : last ∈ c.items := List.mem_of_getLast? hlast
  have hi := h.index_of_mem hmem
  have hsplit : c.items.dropLast = (c.eraseNode last.addr).items := by
    have haddrs := h.addrs
    unfold LRUCache.eraseNode
    rw [← hitems] at haddrs
    conv_rhs => rw [← hitems]
    rw [List.map_append, List.nodup_append] at haddrs
    rw [List.filter_append, List.filter_eq_self.mpr]
    · simp
    · intro n hn
      have := haddrs.2.2 n.addr (List.mem_map_of_mem hn) last.addr (by simp)
      simpa using this
  have hevict : c.evict = { c.eraseNode last.addr with index := c.index.erase last.key } := by
    unfold LRUCache.evict
    rw [hlast]
    simp only [hsplit]
    rfl
  refine ⟨?_, ?_, ?_, ?_, ?_⟩
  · rw [hevict]
    exact h.eraseNode hi
  · rw [hevict]
    unfold entries
    rw [← hsplit, List.map_dropLast]
  · rw [hevict]
    rfl
  · rw [hevict, ← hsplit, List.length_dropLast]
    have := List.length_pos_iff.mpr hne
    omega
  · intro key hk
    rw [hevict]
    show c.index.erase last.key key = none
    by_cases hkey : key = last.key
    · rw [hkey, Table.erase_self]
    · rw [Table.erase_of_ne _ hkey]
      exact hk

theorem emplace (h : c.Corresponds) (hi : c.index key = none) (hroom : c.items.length < c.capacity)
    (value : V) : (c.emplace key value).Corresponds where
  addrs := by
    refine List.nodup_cons.mpr ⟨?_, h.addrs⟩
    intro hin
    obtain ⟨n, hn, ha⟩ := List.mem_map.mp hin
    have := h.fresh n hn
    simp only at ha
    omega
  fresh := by
    intro n hn
    rcases List.mem_cons.mp hn with rfl | hn
    · exact Nat.lt_succ_self _
    · exact Nat.lt_succ_of_lt (h.fresh n hn)
  index := by
    intro key' it
    have hidx : (c.emplace key value).index = c.index.insert key c.nextAddr := by
      simp [LRUCache.emplace, hi]
    rw [hidx, show (c.emplace key value).items = ⟨c.nextAddr, key, value⟩ :: c.items from rfl]
    by_cases hk : key' = key
    · subst hk
      rw [Table.insert_self]
      constructor
      · intro he
        exact ⟨_, List.mem_cons_self, rfl, Option.some.inj he⟩
      · rintro ⟨n, hn, hk, rfl⟩
        rcases List.mem_cons.mp hn with rfl | hn
        · rfl
        · have hi' := h.index_of_mem hn
          rw [hk, hi] at hi'
          cases hi'
    · rw [Table.insert_of_ne _ hk, h.index key' it]
      constructor
      · rintro ⟨n, hn, hkn⟩
        exact ⟨n, List.mem_cons_of_mem _ hn, hkn⟩
      · rintro ⟨n, hn, hkn, ha⟩
        rcases List.mem_cons.mp hn with rfl | hn
        · exact absurd hkn.symm hk
        · exact ⟨n, hn, hkn, ha⟩
  size := hroom

theorem put (h : c.Corresponds) (key : K) (value : V) :
    (c.put key value).Corresponds ∧ (c.put key value).capacity = c.capacity ∧
      (c.put key value).entries = c.entries.put c.capacity key value := by
  have hlen : c.entries.length = c.items.length := List.length_map _
  unfold LRUCache.put RecencyList.put
  rw [h.lookup_isSome, hlen]
  by_cases h0 : c.capacity = 0
  · rw [if_pos h0, if_pos h0]
    exact ⟨h, rfl, rfl⟩
  · rw [if_neg h0, if_neg h0]
    cases hi : c.index key with
    | some it =>
      obtain ⟨n, hnode, -⟩ := h.node_of_index hi
      have hset := h.setValue it value
      have hi' : (c.setValue it value).index key = some it := hi
      obtain ⟨hentries, -⟩ := hset.entries_splice hi' (node_setValue it value hnode)
      refine ⟨hset.splice hi', ?_, ?_⟩
      · exact splice_capacity _ _
      · rw [hentries, h.without_setValue hi]
        rfl
    | none =>
      by_cases hfull : c.capacity ≤ c.items.length
      · -- the last entry makes room
        have hne : c.items ≠ [] := by
          intro hnil
          rw [hnil] at hfull
          simp only [List.length_nil] at hfull
          omega
        obtain ⟨hev, hdrop, hcap, hcount, hidx⟩ := h.evict hne
        have hsize := h.size
        simp only [if_pos hfull]
        refine ⟨hev.emplace (hidx key hi) (by omega) value, hcap, ?_⟩
        show (key, value) :: c.evict.entries = _
        rw [hdrop]
        rfl
      · simp only [if_neg hfull]
        exact ⟨h.emplace hi (Nat.lt_of_not_le hfull) value, rfl, rfl⟩

theorem get (h : c.Corresponds) (key : K) (valueOut : V) :
    (c.get key valueOut).2.2.Corresponds ∧ (c.get key valueOut).2.2.capacity = c.capacity ∧
      ((c.get key valueOut).1, (c.get key valueOut).2.1, (c.get key valueOut).2.2.entries) =
        c.entries.get key valueOut := by
  unfold LRUCache.get RecencyList.get
  cases hi : c.index key with
  | none =>
    rw [h.lookup_of_index_none hi]
    exact ⟨h, rfl, rfl⟩
  | some it =>
    obtain ⟨n, hnode, -⟩ := h.node_of_index hi
    obtain ⟨hentries, hnode'⟩ := h.entries_splice hi hnode
    rw [h.lookup_of_index hi hnode]
    refine ⟨h.splice hi, splice_capacity _ _, ?_⟩
    simp only [hnode', hentries]
    rfl

theorem erase (h : c.Corresponds) (key : K) :
    (c.erase key).Corresponds ∧ (c.erase key).capacity = c.capacity ∧
      (c.erase key).entries = c.entries.without key := by
  unfold LRUCache.erase
  cases hi : c.index key with
  | none =>
    exact ⟨h, rfl, (RecencyList.without_of_lookup_none (h.lookup_of_index_none hi)).symm⟩
  | some it => exact ⟨h.eraseNode hi, rfl, h.entries_eraseNode hi⟩

/-- A call keeps the correspondence, and shows and does what it does on the recency list. -/
theorem apply (h : c.Corresponds) (op : CacheOp K V) :
    (c.apply op).2.Corresponds ∧ (c.apply op).2.capacity = c.capacity ∧
      ((c.apply op).1, (c.apply op).2.entries) = c.entries.apply c.capacity op := by
  cases op with
  | put key value =>
    obtain ⟨hc, hcap, he⟩ := h.put key value
    exact ⟨hc, hcap, by simp only [LRUCache.apply, RecencyList.apply, he]⟩
  | get key valueOut =>
    obtain ⟨hc, hcap, he⟩ := h.get key valueOut
    refine ⟨hc, hcap, ?_⟩
    simp only [LRUCache.apply, RecencyList.apply, ← he]
  | contains key =>
    refine ⟨h, rfl, ?_⟩
    simp only [LRUCache.apply, RecencyList.apply, LRUCache.contains, h.lookup_isSome]
  | erase key =>
    obtain ⟨hc, hcap, he⟩ := h.erase key
    exact ⟨hc, hcap, by simp only [LRUCache.apply, RecencyList.apply, he]⟩
  | clear => exact ⟨corresponds_clear c, rfl, rfl⟩
  | size =>
    refine ⟨h, rfl, ?_⟩
    simp [LRUCache.apply, RecencyList.apply, LRUCache.size, entries]

theorem run (h : c.Corresponds) (ops : List (CacheOp K V)) :
    (c.run ops).2.Corresponds ∧ (c.run ops).2.capacity = c.capacity ∧
      ((c.run ops).1, (c.run ops).2.entries) = c.entries.run c.capacity ops := by
  induction ops generalizing c with
  | nil => exact ⟨h, rfl, rfl⟩
  | cons op ops ih =>
    obtain ⟨hc, hcap, he⟩ := h.apply op
    obtain ⟨hc', hcap', he'⟩ := ih hc
    refine ⟨hc', hcap'.trans hcap, ?_⟩
    simp only [RecencyList.run, ← he]
    rw [← hcap, ← he']
    rfl

end Corresponds

/-- The cache is a recency list: after every sequence of calls on a new cache the list and the index
    correspond, no key has two nodes, and what the calls show and the entries that are left are those of
    the recency list. -/
theorem run_refines_recencyList (capacity : Nat) (ops : List (CacheOp K V)) :
    ((make capacity).run ops).2.Corresponds ∧
      (((make capacity).run ops).2.items.map CacheNode.key).Nodup ∧
      ((make capacity).run ops).2.items.length ≤ capacity ∧
      (((make capacity).run ops).1, ((make capacity).run ops).2.entries) =
        RecencyList.run capacity [] ops := by
  obtain ⟨hc, hcap, he⟩ := (corresponds_make (K := K) (V := V) capacity).run ops
  have hsize := hc.size
  rw [hcap] at hsize
  exact ⟨hc, hc.keys, hsize, he⟩

end LRUCache

end ModularNetServer
