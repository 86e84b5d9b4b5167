import ModularNetServer.Cache.CacheAdapter
import ModularNetServer.Cache.Proofs.LRUCacheProofs

/-!
# The LRU front is transparent

With both levels in use every call writes through, so the LRU cache holds entries of Redis only: a hit
answers what Redis would have answered.
-/

namespace ModularNetServer

open Cxx

namespace CacheAdapter

variable {c : CacheAdapter} {store : Table Str Str} {key value : Str}

/-- The LRU cache in front of Redis holds entries of Redis. -/
structure Fronts (c : CacheAdapter) (store : Table Str Str) : Prop where
  mode : c.mode = .lruRedis
  redis : c.redis = some store
  lru : ∃ lru, c.lru = some lru ∧ lru.Corresponds ∧ lru.entries.Within store

/-- The adapter without an LRU cache. -/
def redisOnly (store : Table Str Str) : CacheAdapter := ⟨.redisOnly, none, some store⟩

theorem fronts_init (capacity : Nat) : (init .lruRedis capacity Table.empty).Fronts Table.empty where
  mode := rfl
  redis := rfl
  lru := ⟨_, rfl, LRUCache.corresponds_make capacity, fun _ _ h => by cases h⟩

/-! ## The LRU cache -/

/-- The LRU cache holds entries of a table. -/
structure Holds (c : CacheAdapter) (table : Table Str Str) : Prop where
  mode : c.mode = .lruRedis
  lru : ∃ lru, c.lru = some lru ∧ lru.Corresponds ∧ lru.entries.Within table

variable {table : Table Str Str}

theorem Holds.usesLru (h : c.Holds table) : c.usesLru = true := by simp [CacheAdapter.usesLru, h.mode]

theorem Holds.usesRedis (h : c.Holds table) : c.usesRedis = true := by
  simp [CacheAdapter.usesRedis, h.mode]

/-- Putting an entry in both. -/
theorem Holds.put (h : c.Holds table) (key value : Str) :
    (c.onLru (fun lru => lru.put key value)).Holds (table.insert key value) := by
  obtain ⟨lru, hl, hcorr, hwithin⟩ := h.lru
  obtain ⟨hcorr', -, hentries⟩ := hcorr.put key value
  unfold onLru
  rw [if_pos h.usesLru]
  refine ⟨h.mode, lru.put key value, by rw [hl]; rfl, hcorr', ?_⟩
  intro key' value' hlook
  rw [hentries] at hlook
  rcases RecencyList.lookup_put hlook with ⟨rfl, rfl⟩ | ⟨hne, hold⟩ | ⟨h0, hold⟩
  · exact Table.insert_self _ _ _
  · rw [Table.insert_of_ne _ hne]
    exact hwithin key' value' hold
  · rw [hcorr.lookup_of_capacity_zero h0] at hold
    cases hold

/-- Putting an entry that the table has. -/
theorem Holds.put_of_eq (h : c.Holds table) (ht : table key = some value) :
    (c.onLru (fun lru => lru.put key value)).Holds table := by
  have hsame : table.insert key value = table := by
    funext key'
    rw [Table.insert_apply]
    split_ifs with hk
    · rw [hk, ht]
    · rfl
  have hput := h.put key value
  rwa [hsame] at hput

/-- Erasing an entry from both. -/
theorem Holds.erase (h : c.Holds table) (key : Str) :
    (c.onLru (fun lru => lru.erase key)).Holds (table.erase key) := by
  obtain ⟨lru, hl, hcorr, hwithin⟩ := h.lru
  obtain ⟨hcorr', -, hentries⟩ := hcorr.erase key
  unfold onLru
  rw [if_pos h.usesLru]
  refine ⟨h.mode, lru.erase key, by rw [hl]; rfl, hcorr', ?_⟩
  intro key' value' hlook
  rw [hentries, RecencyList.lookup_without] at hlook
  split_ifs at hlook with hk
  rw [Table.erase_of_ne _ hk]
  exact hwithin key' value' hlook

/-- The look-up of `get` in the LRU cache: a hit finds what the table has. -/
theorem Holds.getLru (h : c.Holds table) (key valueOut : Str) :
    (c.getLru key valueOut).2.2.Holds table ∧
      ((c.getLru key valueOut).1 = true → table key = some (c.getLru key valueOut).2.1) := by
  obtain ⟨lru, hl, hcorr, hwithin⟩ := h.lru
  obtain ⟨hcorr', -, hget⟩ := hcorr.get key valueOut
  unfold CacheAdapter.getLru
  rw [if_pos h.usesLru, hl]
  refine ⟨⟨h.mode, _, rfl, hcorr', ?_⟩, ?_⟩
  · intro key' value' hlook
    have hent := congrArg (fun r => r.2.2) hget
    simp only at hent
    rw [hent, RecencyList.lookup_get] at hlook
    exact hwithin key' value' hlook
  · intro hhit
    simp only at hhit ⊢
    have h1 := congrArg (fun r => r.1) hget
    have h2 := congrArg (fun r => r.2.1) hget
    simp only at h1 h2
    rw [hhit] at h1
    rw [h2]
    unfold RecencyList.get at h1 ⊢
    cases hlook : lru.entries.lookup key with
    | none => simp [hlook] at h1
    | some value => exact hwithin key value hlook

/-- The look-up in the LRU cache leaves Redis alone. -/
theorem redis_getLru (c : CacheAdapter) (key valueOut : Str) :
    (c.getLru key valueOut).2.2.redis = c.redis := by
  unfold CacheAdapter.getLru
  split_ifs
  · split <;> rfl
  · rfl

theorem redis_onLru (c : CacheAdapter) (f : LRUCache Str Str → LRUCache Str Str) :
    (c.onLru f).redis = c.redis := by
  unfold onLru
  split_ifs <;> rfl

/-! ## The parts of the calls -/

theorem Fronts.holds (h : c.Fronts store) : c.Holds store := ⟨h.mode, h.lru⟩

theorem Holds.fronts (h : c.Holds store) (hr : c.redis = some store) : c.Fronts store :=
  ⟨h.mode, hr, h.lru⟩

/-- What `get` shows without an LRU cache. -/
theorem get_redisOnly (store : Table Str Str) (key valueOut : Str) :
    (redisOnly store).get key valueOut =
      ((store key).isSome, (store key).getD [], redisOnly store) := by
  unfold CacheAdapter.get getLru getRedis backfill
  cases hs : store key <;> simp [redisOnly, CacheAdapter.usesLru, CacheAdapter.usesRedis, hs]

/-- The look-up of `get` in Redis, and what follows a hit there. -/
theorem Fronts.getRedis (h : c.Fronts store) (key valueOut : Str) :
    c.getRedis key valueOut = ((store key).isSome, (store key).getD []) := by
  unfold CacheAdapter.getRedis
  rw [if_pos h.holds.usesRedis, h.redis]
  cases hs : store key <;> simp [hs]

theorem Fronts.backfill (h : c.Fronts store) (hs : store key = some value) :
    (c.backfill key value).Fronts store := by
  unfold CacheAdapter.backfill
  rw [if_pos h.mode]
  exact (h.holds.put_of_eq hs).fronts ((redis_onLru c _).trans h.redis)

/-- `get` shows what it shows without the LRU cache. -/
theorem Fronts.get (h : c.Fronts store) (key valueOut : Str) :
    (c.get key valueOut).2.2.Fronts store ∧
      ((c.get key valueOut).1, (c.get key valueOut).2.1) = ((store key).isSome, (store key).getD []) := by
  obtain ⟨hholds, hhit⟩ := h.holds.getLru key valueOut
  have hfront := hholds.fronts ((redis_getLru c key valueOut).trans h.redis)
  unfold CacheAdapter.get
  generalize c.getLru key valueOut = r at hfront hhit ⊢
  obtain ⟨hit, value, c'⟩ := r
  cases hit with
  | true =>
    have hs : store key = some value := hhit rfl
    simp [hs, hfront]
  | false =>
    dsimp only at hfront ⊢
    rw [hfront.getRedis key value]
    cases hs : store key with
    | none => exact ⟨hfront, rfl⟩
    | some value' => exact ⟨hfront.backfill hs, rfl⟩

/-- `contains` answers what it answers without the LRU cache. -/
theorem Fronts.contains (h : c.Fronts store) (key : Str) : c.contains key = (store key).isSome := by
  obtain ⟨lru, hl, hcorr, hwithin⟩ := h.lru
  unfold CacheAdapter.contains
  rw [h.holds.usesLru, h.holds.usesRedis, hl, h.redis]
  simp only [Bool.true_and, Option.any_some, LRUCache.contains]
  rw [← hcorr.lookup_isSome]
  cases hlook : lru.entries.lookup key with
  | none => rfl
  | some value => rw [hwithin key value hlook]; rfl

/-- The part of a call that changes Redis, after the part that has changed the LRU cache. -/
theorem Holds.onRedis (h : c.Holds table) {redis : Table Str Str} (hr : c.redis = some redis)
    (g : Table Str Str → Table Str Str) :
    (c.onRedis g).Holds table ∧ (c.onRedis g).redis = some (g redis) := by
  unfold CacheAdapter.onRedis
  rw [if_pos h.usesRedis, hr]
  exact ⟨⟨h.mode, h.lru⟩, rfl⟩

theorem Fronts.set (h : c.Fronts store) (key value : Str) :
    (c.set key value).Fronts (store.insert key value) := by
  obtain ⟨hholds, hredis⟩ := (h.holds.put key value).onRedis ((redis_onLru c _).trans h.redis)
    (fun redis => redis.insert key value)
  exact hholds.fronts hredis

theorem Fronts.erase (h : c.Fronts store) (key : Str) : (c.erase key).Fronts (store.erase key) := by
  obtain ⟨hholds, hredis⟩ := (h.holds.erase key).onRedis ((redis_onLru c _).trans h.redis)
    (fun redis => redis.erase key)
  exact hholds.fronts hredis

theorem Fronts.clear (h : c.Fronts store) : c.clear.Fronts store := by
  obtain ⟨lru, hl, -, -⟩ := h.lru
  unfold CacheAdapter.clear
  rw [hl]
  exact ⟨h.mode, h.redis, _, rfl, LRUCache.corresponds_clear lru, fun _ _ hlook => by cases hlook⟩

/-! ## Runs -/

/-- The value of a key after a call. -/
def valueAfter (key : Str) (old : Option Str) : AdapterOp → Option Str
  | .set key' value => if key = key' then some value else old
  | .erase key' => if key = key' then none else old
  | _ => old

/-- The value that a key was set to last, if it has not been erased since. -/
def lastValue (key : Str) (ops : List AdapterOp) : Option Str := ops.foldl (valueAfter key) none

/-- A call shows the same with and without the LRU cache. -/
theorem Fronts.apply (h : c.Fronts store) (op : AdapterOp) :
    (c.apply op).2.Fronts (fun key => valueAfter key (store key) op) ∧
      (c.apply op).1 = ((redisOnly store).apply op).1 ∧
      ((redisOnly store).apply op).2 = redisOnly (fun key => valueAfter key (store key) op) := by
  cases op with
  | get key valueOut =>
    obtain ⟨hfront, hshow⟩ := h.get key valueOut
    refine ⟨hfront, ?_, ?_⟩
    · simp only [CacheAdapter.apply, get_redisOnly]
      rw [Prod.mk.injEq] at hshow
      rw [hshow.1, hshow.2]
    · simp only [CacheAdapter.apply, get_redisOnly]
      rfl
  | set key value => exact ⟨h.set key value, rfl, rfl⟩
  | erase key => exact ⟨h.erase key, rfl, rfl⟩
  | contains key =>
    refine ⟨h, ?_, rfl⟩
    simp only [CacheAdapter.apply, h.contains key]
    simp [CacheAdapter.contains, redisOnly, CacheAdapter.usesLru, CacheAdapter.usesRedis]
  | clear => exact ⟨h.clear, rfl, rfl⟩

theorem Fronts.run (h : c.Fronts store) (ops : List AdapterOp) :
    (c.run ops).2.Fronts (fun key => ops.foldl (valueAfter key) (store key)) ∧
      (c.run ops).1 = ((redisOnly store).run ops).1 := by
  induction ops generalizing c store with
  | nil => exact ⟨h, rfl⟩
  | cons op ops ih =>
    obtain ⟨hfront, hshow, hredis⟩ := h.apply op
    obtain ⟨hfront', hshow'⟩ := ih hfront
    refine ⟨hfront', ?_⟩
    simp only [CacheAdapter.run, hshow, hshow', hredis]

/-- The LRU front is transparent: for every capacity, every sequence of calls on an empty store shows the
    same with the LRU cache in front of Redis as without it, and after it `get` and `contains` show
    the value that was set last and not erased since. -/
theorem run_lruRedis_transparent (capacity : Nat) (ops : List AdapterOp) :
    ((init .lruRedis capacity Table.empty).run ops).1 =
        ((init .redisOnly capacity Table.empty).run ops).1 ∧
      ∀ key valueOut,
        ((((init .lruRedis capacity Table.empty).run ops).2.get key valueOut).1,
            (((init .lruRedis capacity Table.empty).run ops).2.get key valueOut).2.1) =
          ((lastValue key ops).isSome, (lastValue key ops).getD []) ∧
        ((init .lruRedis capacity Table.empty).run ops).2.contains key = (lastValue key ops).isSome := by
  obtain ⟨hfront, hshow⟩ := (fronts_init capacity).run ops
  refine ⟨hshow, ?_⟩
  intro key valueOut
  exact ⟨(hfront.get key valueOut).2, hfront.contains key⟩

end CacheAdapter

end ModularNetServer
