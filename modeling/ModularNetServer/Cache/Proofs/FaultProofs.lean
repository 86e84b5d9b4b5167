import ModularNetServer.Cache.FaultyCache
import ModularNetServer.Cache.Proofs.CacheAdapterProofs

/-!
# Stale values after a failure

A failed `SET` or `DEL` leaves the value of before in Redis. The LRU cache hides it for as long as it
holds the key.
-/

namespace ModularNetServer

open Cxx

namespace CacheAdapter

variable {c : CacheAdapter} {table redis : Table Str Str} {key : Str}

/-- A miss in the LRU cache. -/
theorem getLru_eq_false (h : c.Holds table) (valueOut : Str) :
    (c.getLru key valueOut).1 = false ↔ c.lru.all (fun lru => !lru.contains key) = true := by
  obtain ⟨lru, hl, -, -⟩ := h.lru
  unfold getLru
  rw [if_pos h.usesLru, hl]
  unfold LRUCache.get LRUCache.contains
  rcases hi : lru.index key with _ | it
  · simp [hi]
  · simp [hi]

/-- What an answered `GET` comes to. -/
theorem getRedis_eq (h : c.Holds table) (hr : c.redis = some redis) (key valueOut : Str) :
    c.getRedis key valueOut = ((redis key).isSome, (redis key).getD []) := by
  unfold getRedis
  rw [if_pos h.usesRedis, hr]
  rcases hk : redis key with _ | value
  · simp [hk]
  · simp [hk]

/-- What `get` comes to: a hit in the LRU cache, no answer, nothing in Redis, or a hit there. -/
theorem getWith_cases (h : c.Holds table) (hr : c.redis = some redis) (answered : Bool) (key valueOut : Str) :
    (∃ value c', c.getWith answered key valueOut = (true, value, c') ∧ table key = some value ∧
        c'.Holds table ∧ c'.redis = some redis ∧
        ¬ c.lru.all (fun lru => !lru.contains key) = true) ∨
      (∃ value c', c.getWith answered key valueOut = (false, value, c') ∧ c'.Holds table ∧
        c'.redis = some redis ∧ (answered = true → redis key = none)) ∨
      (∃ value c', c.getWith answered key valueOut = (true, value, c') ∧ answered = true ∧
        redis key = some value ∧ c'.redis = some redis ∧
        c.lru.all (fun lru => !lru.contains key) = true ∧ c'.Holds (table.insert key value)) := by
  obtain ⟨hholds, hhit⟩ := h.getLru key valueOut
  have hredis := (redis_getLru c key valueOut).trans hr
  have hmiss := @getLru_eq_false _ _ key h valueOut
  unfold getWith
  generalize c.getLru key valueOut = r at hholds hhit hredis hmiss ⊢
  obtain ⟨hit, value, c'⟩ := r
  dsimp only at hholds hhit hredis hmiss
  cases hit with
  | true =>
    refine .inl ⟨value, c', rfl, hhit rfl, hholds, hredis, ?_⟩
    rw [← hmiss]
    simp
  | false =>
    refine .inr ?_
    dsimp only
    by_cases hanswered : answered = true
    · rw [if_pos hanswered, getRedis_eq hholds hredis]
      rcases hk : redis key with _ | value'
      · exact .inl ⟨_, c', rfl, hholds, hredis, fun _ => rfl⟩
      · refine .inr ⟨value', c'.backfill key value', rfl, hanswered, rfl, ?_, hmiss.mp rfl, ?_⟩
        · unfold backfill
          rw [if_pos hholds.mode]
          exact (redis_onLru _ _).trans hredis
        · unfold backfill
          rw [if_pos hholds.mode]
          exact hholds.put key value'
    · rw [if_neg hanswered]
      exact .inl ⟨value, c', rfl, hholds, hredis, fun ha => absurd ha hanswered⟩

end CacheAdapter

namespace FaultyCache

/-- As long as the reads are coherent, the LRU cache holds current values. -/
structure Inv (s : FaultyCache) : Prop where
  redis : ∃ redis, s.cache.redis = some redis
  holds : ∃ table, s.cache.Holds table ∧ (s.Coherent → table = s.current)

theorem inv_start (capacity : Nat) (store : Table Str Str) : (start capacity store).Inv where
  redis := ⟨store, rfl⟩
  holds := ⟨store, ⟨rfl, _, rfl, LRUCache.corresponds_make capacity, fun _ _ h => by cases h⟩,
    fun _ => rfl⟩

variable {s s' : FaultyCache} {a : Action}

theorem stored_eq {redis : Table Str Str} (hr : s.cache.redis = some redis) (key : Str) :
    s.stored key = redis key := by
  unfold stored
  rw [hr]
  rfl

/-- One more read. -/
theorem coherent_append (reads : List (Option Str × Str)) (r : Option Str × Str) :
    (∀ r' ∈ reads ++ [r], r'.1 = some r'.2) ↔ (∀ r' ∈ reads, r'.1 = some r'.2) ∧ r.1 = some r.2 := by
  simp [or_imp, forall_and]

/-- A `get` keeps what the LRU cache holds current, and is coherent exactly if it reads no leftover. -/
theorem step_get {answered : Bool} {key valueOut : Str} (hs : s.Inv)
    (h : step s (.get answered key valueOut) = some s') :
    s'.Inv ∧ (s'.Coherent ↔ s.Coherent ∧ ReadsNoLeftover s (.get answered key valueOut)) := by
  obtain ⟨⟨redis, hredis⟩, table, hholds, hcurrent⟩ := hs
  simp only [step] at h
  simp only [ReadsNoLeftover, stored_eq hredis]
  rcases CacheAdapter.getWith_cases hholds hredis answered key valueOut with
    ⟨value, c', heq, htable, hholds', hredis', hhit⟩ | ⟨value, c', heq, hholds', hredis', hnone⟩ |
    ⟨value, c', heq, hanswered, hvalue, hredis', hmiss, hholds'⟩
  · simp only [heq, if_true, Option.some.injEq] at h
    subst h
    have hgood : s.Coherent → s.current key = some value := fun hc => by rw [← hcurrent hc, htable]
    refine ⟨⟨⟨redis, hredis'⟩, table, hholds', ?_⟩, ?_⟩
    · intro hc
      exact hcurrent ((coherent_append s.reads _).mp hc).1
    · unfold Coherent
      rw [coherent_append]
      exact ⟨fun hc => ⟨hc.1, fun _ hmiss => absurd hmiss hhit⟩, fun hc => ⟨hc.1, hgood hc.1⟩⟩
  · simp only [heq, Bool.false_eq_true, if_false, Option.some.injEq] at h
    subst h
    refine ⟨⟨⟨redis, hredis'⟩, table, hholds', hcurrent⟩, ?_⟩
    refine ⟨fun hc => ⟨hc, ?_⟩, fun hc => hc.1⟩
    intro hanswered _ value' hvalue'
    rw [hnone hanswered] at hvalue'
    cases hvalue'
  · simp only [heq, if_true, Option.some.injEq] at h
    subst h
    refine ⟨⟨⟨redis, hredis'⟩, table.insert key value, hholds', ?_⟩, ?_⟩
    · intro hc
      obtain ⟨hold, hread⟩ := (coherent_append s.reads _).mp hc
      funext key'
      rw [Table.insert_apply, hcurrent hold]
      split_ifs with hk
      · rw [hk]
        exact hread.symm
      · rfl
    · unfold Coherent
      rw [coherent_append, hvalue]
      refine and_congr_right fun _ => ⟨fun hread _ _ value' hvalue' => ?_, fun hfresh => ?_⟩
      · cases hvalue'
        exact hread
      · exact hfresh hanswered hmiss value rfl

theorem step_inv (hs : s.Inv) (h : step s a = some s') : s'.Inv := by
  rcases a with ⟨answered, key, valueOut⟩ | ⟨answered, key, value⟩ | ⟨answered, key⟩
  · exact (step_get hs h).1
  · obtain ⟨⟨redis, hredis⟩, table, hholds, hcurrent⟩ := hs
    cases h
    have hput := hholds.put key value
    have hput_redis := (CacheAdapter.redis_onLru s.cache (fun lru => lru.put key value)).trans hredis
    have hnext : s.Coherent → table.insert key value = s.current.insert key value :=
      fun hc => by rw [hcurrent hc]
    obtain ⟨hboth, hboth_redis⟩ := hput.onRedis hput_redis (fun redis => redis.insert key value)
    unfold CacheAdapter.setWith
    split_ifs
    · exact ⟨⟨_, hboth_redis⟩, _, hboth, hnext⟩
    · exact ⟨⟨_, hput_redis⟩, _, hput, hnext⟩
  · obtain ⟨⟨redis, hredis⟩, table, hholds, hcurrent⟩ := hs
    cases h
    have herase := hholds.erase key
    have herase_redis := (CacheAdapter.redis_onLru s.cache (fun lru => lru.erase key)).trans hredis
    have hnext : s.Coherent → table.erase key = s.current.erase key :=
      fun hc => by rw [hcurrent hc]
    obtain ⟨hboth, hboth_redis⟩ := herase.onRedis herase_redis (fun redis => redis.erase key)
    unfold CacheAdapter.eraseWith
    split_ifs
    · exact ⟨⟨_, hboth_redis⟩, _, hboth, hnext⟩
    · exact ⟨⟨_, herase_redis⟩, _, herase, hnext⟩

theorem step_good (hs : s.Inv) (h : step s a = some s') :
    s'.Coherent ↔ s.Coherent ∧ ReadsNoLeftover s a := by
  rcases a with ⟨answered, key, valueOut⟩ | ⟨answered, key, value⟩ | ⟨answered, key⟩
  · exact (step_get hs h).2
  · cases h
    simp [ReadsNoLeftover, Coherent]
  · cases h
    simp [ReadsNoLeftover, Coherent]

/-! ## Where leftovers come from -/

/-- A command that is answered, or one for another key, leaves no leftover for the key. -/
theorem step_stored {key : Str} (hs : s.Inv) (hkey : s.stored key = s.current key)
    (ha : WritesAnswered key s a) (h : step s a = some s') : s'.stored key = s'.current key := by
  obtain ⟨⟨redis, hredis⟩, table, hholds, -⟩ := hs
  rw [stored_eq hredis] at hkey
  rcases a with ⟨answered, key', valueOut⟩ | ⟨answered, key', value⟩ | ⟨answered, key'⟩
  · simp only [step] at h
    rcases CacheAdapter.getWith_cases hholds hredis answered key' valueOut with
      ⟨_, c', heq, -, -, hredis', -⟩ | ⟨_, c', heq, -, hredis', -⟩ | ⟨_, c', heq, -, -, hredis', -⟩
    all_goals
      simp only [heq, Option.some.injEq] at h
      subst h
      rw [stored_eq hredis']
      exact hkey
  · cases h
    have hput_redis := (CacheAdapter.redis_onLru s.cache (fun lru => lru.put key' value)).trans hredis
    have hboth := ((hholds.put key' value).onRedis hput_redis (fun redis => redis.insert key' value)).2
    unfold CacheAdapter.setWith
    split_ifs with hanswered
    · rw [stored_eq hboth, Table.insert_apply, hkey]
      rfl
    · have hne : key ≠ key' := fun heq => hanswered (ha heq.symm)
      rw [stored_eq hput_redis, hkey]
      exact (Table.insert_of_ne _ hne _).symm
  · cases h
    have herase_redis := (CacheAdapter.redis_onLru s.cache (fun lru => lru.erase key')).trans hredis
    have hboth := ((hholds.erase key').onRedis herase_redis (fun redis => redis.erase key')).2
    unfold CacheAdapter.eraseWith
    split_ifs with hanswered
    · rw [stored_eq hboth, Table.erase_apply, hkey]
      rfl
    · have hne : key ≠ key' := fun heq => hanswered (ha heq.symm)
      rw [stored_eq herase_redis, hkey]
      exact (Table.erase_of_ne _ hne).symm

/-- As long as the `SET` and `DEL` commands for a key are answered, Redis holds its current value. -/
theorem run_stored {capacity : Nat} {store : Table Str Str} {actions : List Action} {key : Str}
    (hanswered : Transition.Meets step (WritesAnswered key) (start capacity store) actions)
    (h : Transition.run step (start capacity store) actions = some s) : s.stored key = s.current key :=
  (@Transition.run_invariant _ _ _ _ (fun s => s.Inv ∧ s.stored key = s.current key)
    (fun _ _ _ hs ha hstep => ⟨step_inv hs.1 hstep, step_stored hs.1 hs.2 ha hstep⟩)
    _ _ _ ⟨inv_start capacity store, rfl⟩ hanswered h).2

/-! ## Runs -/

/-- **Coherence under failures.** In every run of calls, with any capacity and any failures, every
    successful `get` has returned the current value of its key if and only if none that had to ask
    Redis was made for a key for which Redis held a leftover. -/
theorem run_coherent_iff {capacity : Nat} {store : Table Str Str} {actions : List Action}
    (h : Transition.run step (start capacity store) actions = some s) :
    s.Coherent ↔ Transition.Meets step ReadsNoLeftover (start capacity store) actions :=
  @Transition.run_iff_meets _ _ _ _ Inv Coherent (fun _ _ _ => step_inv)
    (fun _ _ _ => step_good) _ _ _ (inv_start capacity store) (fun _ hr => nomatch hr) h

/-- The `SET` of a second value fails, and the key is evicted. -/
def staleActions : List Action :=
  [.set true (str "a") (str "1"), .set false (str "a") (str "2"), .set true (str "b") (str "3"),
    .get true (str "a") []]

/-- The first value is back. -/
theorem failed_set_reappears :
    ∃ s, Transition.run step (start 1 Table.empty) staleActions = some s ∧
      s.reads = [(some (str "2"), str "1")] ∧ ¬ s.Coherent := by
  obtain ⟨s, hs, hreads⟩ := Option.map_eq_some_iff.mp
    (show (Transition.run step (start 1 Table.empty) staleActions).map reads =
      some [(some (str "2"), str "1")] by decide)
  refine ⟨s, hs, hreads, ?_⟩
  intro hc
  have hread := hc (some (str "2"), str "1") (by rw [hreads]; exact List.mem_cons_self)
  exact absurd hread (by decide)

/-- A failed `SET` whose key stays in the LRU cache. -/
def hiddenActions : List Action :=
  [.set true (str "a") (str "1"), .set false (str "a") (str "2"), .get true (str "a") []]

theorem run_coherent_iff_hidden :
    ∃ s, Transition.run step (start 1 Table.empty) hiddenActions = some s ∧
      (s.Coherent ↔ Transition.Meets step ReadsNoLeftover (start 1 Table.empty) hiddenActions) := by
  obtain ⟨s, hs⟩ := Option.isSome_iff_exists.mp
    (show (Transition.run step (start 1 Table.empty) hiddenActions).isSome = true by decide)
  exact ⟨s, hs, run_coherent_iff hs⟩

end FaultyCache

end ModularNetServer
