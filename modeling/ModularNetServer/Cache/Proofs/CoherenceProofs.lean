import ModularNetServer.Cache.SharedCache
import ModularNetServer.Cache.Proofs.CacheAdapterProofs

/-!
# Coherence of the two levels

While calls are in progress the LRU cache may hold a value that is about to be set in Redis. `Accounted`
says that it holds nothing else but what Redis holds; steps that are in order keep it, and when no call is
in progress it is coherence.
-/

namespace ModularNetServer

open Cxx

namespace SharedCache

variable {s s' : SharedCache} {lru : LRUCache Str Str} {store : Table Str Str} {calls : List CacheCall}
  {call : CacheCall} {i : Nat}

/-- Both levels in use, with calls in progress. -/
def both (lru : LRUCache Str Str) (store : Table Str Str) (calls : List CacheCall) : SharedCache :=
  ⟨⟨.lruRedis, some lru, some store⟩, calls⟩

/-- What the LRU cache holds is held by Redis, or about to be set there. -/
def Accounted (lru : LRUCache Str Str) (store : Table Str Str) (calls : List CacheCall) : Prop :=
  ∀ key value, lru.entries.lookup key = some value →
    store key = some value ∨ .setRedis key value ∈ calls

/-- What every step in order keeps. -/
structure Sound (s : SharedCache) : Prop where
  both : ∃ lru store, s = both lru store s.calls ∧ lru.Corresponds ∧ Accounted lru store s.calls

theorem sound_start (capacity : Nat) (store : Table Str Str) : Sound (start capacity store) where
  both := ⟨LRUCache.make capacity, store, rfl, LRUCache.corresponds_make capacity, fun _ _ h => by cases h⟩

/-! ## Calls in progress -/

/-- The other calls stay in progress. -/
theorem mem_setCall {x : CacheCall} (hx : x ∈ calls) (hi : calls[i]? = some call) (hne : x ≠ call)
    (rest : Option CacheCall) : x ∈ setCall calls i rest := by
  obtain ⟨j, hj⟩ := List.mem_iff_getElem?.mp hx
  have hji : j ≠ i := by
    rintro rfl
    rw [hi] at hj
    exact hne (Option.some.inj hj).symm
  cases rest with
  | none => exact List.mem_eraseIdx_iff_getElem?.mpr ⟨j, hji, hj⟩
  | some call' =>
    apply List.mem_of_getElem? (i := j)
    rw [← hj]
    exact List.getElem?_set_ne (Ne.symm hji)

theorem mem_setCall_self {call' : CacheCall} (hi : calls[i]? = some call) :
    call' ∈ setCall calls i (some call') := List.mem_set (List.getElem?_eq_some_iff.mp hi).1 _

/-- A call that sets nothing in Redis goes on, and the LRU cache gets no new values. -/
theorem Accounted.setCall (h : Accounted lru store calls) (hi : calls[i]? = some call)
    (hcall : ∀ key value, call ≠ .setRedis key value) {lru' : LRUCache Str Str}
    (hlru : ∀ key value, lru'.entries.lookup key = some value → lru.entries.lookup key = some value)
    (rest : Option CacheCall) : Accounted lru' store (setCall calls i rest) := by
  intro key value hlook
  rcases h key value (hlru key value hlook) with hs | hmem
  · exact .inl hs
  · exact .inr (mem_setCall hmem hi (Ne.symm (hcall key value)) rest)

/-- The LRU cache stores a value that is accounted for. -/
theorem Accounted.put (h : Accounted lru store calls) (hcorr : lru.Corresponds)
    (hi : calls[i]? = some call) (hcall : ∀ key value, call ≠ .setRedis key value) {key value : Str}
    {rest : Option CacheCall}
    (hnew : lru.capacity = 0 ∨ store key = some value ∨
      .setRedis key value ∈ SharedCache.setCall calls i rest) :
    Accounted (lru.put key value) store (SharedCache.setCall calls i rest) := by
  obtain ⟨hcorr', hcap, hentries⟩ := hcorr.put key value
  have hold := h.setCall hi hcall (fun _ _ hl => hl) rest
  intro key' value' hlook
  have hput := hlook
  rw [hentries] at hput
  rcases RecencyList.lookup_put hput with ⟨rfl, rfl⟩ | ⟨-, hl⟩ | ⟨-, hl⟩
  · rcases hnew with h0 | hnew
    · rw [hcorr'.lookup_of_capacity_zero (hcap.trans h0)] at hlook
      cases hlook
    · exact hnew
  · exact hold key' value' hl
  · exact hold key' value' hl

/-- Redis changes for one key, for which the LRU cache then holds nothing that is not accounted for. -/
theorem Accounted.setStore (h : Accounted lru store calls) (hi : calls[i]? = some call) {key : Str}
    (hcall : ∀ key' value, call = .setRedis key' value → key' = key) {store' : Table Str Str}
    {rest : Option CacheCall} (hsame : ∀ key', key' ≠ key → store' key' = store key')
    (hkey : ∀ value, lru.entries.lookup key = some value →
      store' key = some value ∨ .setRedis key value ∈ SharedCache.setCall calls i rest) :
    Accounted lru store' (SharedCache.setCall calls i rest) := by
  intro key' value' hlook
  by_cases hk : key' = key
  · subst hk
    exact hkey value' hlook
  · rw [hsame key' hk]
    rcases h key' value' hlook with hs | hmem
    · exact .inl hs
    · refine .inr (mem_setCall hmem hi ?_ rest)
      intro heq
      exact hk (hcall key' value' heq.symm)

/-! ## The parts of the calls -/

/-- The part of a call that is in order keeps what the LRU cache holds accounted for. -/
theorem step_call (hcorr : lru.Corresponds) (h : Accounted lru store calls)
    (hi : calls[i]? = some call) (horder : (SharedCache.both lru store calls).CallInOrder call) :
    ∃ lru' store', (call.step ⟨.lruRedis, some lru, some store⟩).1 =
        ⟨.lruRedis, some lru', some store'⟩ ∧ lru'.Corresponds ∧
      Accounted lru' store' (setCall calls i (call.step ⟨.lruRedis, some lru, some store⟩).2) := by
  cases call with
  | getLru key valueOut =>
    obtain ⟨hcorr', -, hget⟩ := hcorr.get key valueOut
    have hlook : ∀ key' value, (lru.get key valueOut).2.2.entries.lookup key' = some value →
        lru.entries.lookup key' = some value := by
      intro key' value hl
      have hent := congrArg (fun r => r.2.2) hget
      simp only at hent
      rwa [hent, RecencyList.lookup_get] at hl
    exact ⟨(lru.get key valueOut).2.2, store, rfl, hcorr', h.setCall hi (by simp) hlook _⟩
  | getRedis key valueOut =>
    exact ⟨lru, store, rfl, hcorr, h.setCall hi (by simp) (fun _ _ hl => hl) _⟩
  | backfill key value =>
    refine ⟨lru.put key value, store, rfl, (hcorr.put key value).1, h.put hcorr hi (by simp) ?_⟩
    rcases horder with h0 | hs | hmem
    · left
      simpa [SharedCache.both] using h0
    · exact .inr (.inl hs)
    · exact .inr (.inr (mem_setCall hmem hi (by simp) _))
  | setLru key value =>
    refine ⟨lru.put key value, store, rfl, (hcorr.put key value).1, h.put hcorr hi (by simp) ?_⟩
    exact .inr (.inr (mem_setCall_self hi))
  | setRedis key value =>
    refine ⟨lru, store.insert key value, rfl, hcorr, ?_⟩
    have hone : ∀ key' value', CacheCall.setRedis key value = .setRedis key' value' → key' = key := by
      intro key' value' heq
      cases heq
      rfl
    refine h.setStore hi hone (fun key' hk => Table.insert_of_ne store hk value) ?_
    intro value' hlook
    rcases horder value' hlook with rfl | hmem
    · exact .inl (Table.insert_self _ _ _)
    · by_cases hv : value' = value
      · rw [hv]
        exact .inl (Table.insert_self _ _ _)
      · exact .inr (mem_setCall hmem hi (by simp [hv]) _)
  | eraseLru key =>
    obtain ⟨hcorr', -, hentries⟩ := hcorr.erase key
    have hlook : ∀ key' value, (lru.erase key).entries.lookup key' = some value →
        lru.entries.lookup key' = some value := by
      intro key' value hl
      rw [hentries, RecencyList.lookup_without] at hl
      split_ifs at hl
      exact hl
    exact ⟨lru.erase key, store, rfl, hcorr', h.setCall hi (by simp) hlook _⟩
  | eraseRedis key =>
    refine ⟨lru, store.erase key, rfl, hcorr, ?_⟩
    refine h.setStore hi (by simp) (fun key' hk => Table.erase_of_ne store hk) ?_
    intro value' hlook
    exact .inr (mem_setCall (horder value' hlook) hi (by simp) _)

/-- No other part of a call does. -/
theorem inOrder_of_step (hcorr : lru.Corresponds) (hi : calls[i]? = some call)
    {lru' : LRUCache Str Str} {store' : Table Str Str}
    (hstep : (call.step ⟨.lruRedis, some lru, some store⟩).1 = ⟨.lruRedis, some lru', some store'⟩)
    (h' : Accounted lru' store'
      (setCall calls i (call.step ⟨.lruRedis, some lru, some store⟩).2)) :
    (SharedCache.both lru store calls).CallInOrder call := by
  have hback : ∀ x, x ∈ calls.eraseIdx i → x ∈ calls := fun x hx => List.mem_of_mem_eraseIdx hx
  cases call with
  | getLru => trivial
  | getRedis => trivial
  | setLru => trivial
  | eraseLru => trivial
  | backfill key value =>
    by_cases h0 : lru.capacity = 0
    · exact .inl (by simp [SharedCache.both, h0])
    · obtain ⟨-, -, hentries⟩ := hcorr.put key value
      cases hstep
      have hlook : (lru.put key value).entries.lookup key = some value := by
        rw [hentries]
        exact RecencyList.lookup_put_self h0 _ key value
      rcases h' key value hlook with hs | hmem
      · exact .inr (.inl hs)
      · exact .inr (.inr (hback _ hmem))
  | setRedis key value =>
    cases hstep
    intro x hx
    rcases h' key x hx with hs | hmem
    · exact .inl (Option.some.inj ((Table.insert_self _ _ _).symm.trans hs)).symm
    · exact .inr (hback _ hmem)
  | eraseRedis key =>
    cases hstep
    intro x hx
    rcases h' key x hx with hs | hmem
    · cases (Table.erase_self store key).symm.trans hs
    · exact hback _ hmem

/-! ## Steps and runs -/

theorem Accounted.append (h : Accounted lru store calls) (call : CacheCall) :
    Accounted lru store (calls ++ [call]) := by
  intro key value hlook
  rcases h key value hlook with hs | hmem
  · exact .inl hs
  · exact .inr (List.mem_append_left _ hmem)

theorem Sound.step (h : s.Sound) {action : Action} (horder : s.InOrder action)
    (hr : s.step action = some s') : s'.Sound := by
  obtain ⟨lru, store, heq, hcorr, hacc⟩ := h.both
  have hcache : s.cache = ⟨.lruRedis, some lru, some store⟩ := by rw [heq]; rfl
  cases action with
  | get key valueOut =>
    cases hr
    exact ⟨lru, store, by rw [heq]; rfl, hcorr, hacc.append _⟩
  | set key value =>
    cases hr
    exact ⟨lru, store, by rw [heq]; rfl, hcorr, hacc.append _⟩
  | erase key =>
    cases hr
    exact ⟨lru, store, by rw [heq]; rfl, hcorr, hacc.append _⟩
  | step i =>
    simp only [SharedCache.step] at hr
    split at hr
    · cases hr
    · rename_i call hi
      cases hr
      have hcall := horder call hi
      rw [heq] at hcall
      obtain ⟨lru', store', hstep, hcorr', hacc'⟩ := step_call hcorr hacc hi hcall
      rw [← hcache] at hstep hacc'
      exact ⟨lru', store', by rw [hstep]; rfl, hcorr', hacc'⟩

/-- The steps that are in order are those that keep what the LRU cache holds accounted for. -/
theorem Sound.step_iff (h : s.Sound) {action : Action} (hr : s.step action = some s') :
    s.InOrder action ↔ s'.Sound := by
  refine ⟨fun horder => h.step horder hr, ?_⟩
  intro h'
  cases action with
  | get => trivial
  | set => trivial
  | erase => trivial
  | step i =>
    intro call hi
    obtain ⟨lru, store, heq, hcorr, -⟩ := h.both
    obtain ⟨lru', store', heq', -, hacc'⟩ := h'.both
    have hcache : s.cache = ⟨.lruRedis, some lru, some store⟩ := by rw [heq]; rfl
    have hcache' : s'.cache = ⟨.lruRedis, some lru', some store'⟩ := by rw [heq']; rfl
    replace hi : s.calls[i]? = some call := hi
    simp only [SharedCache.step, hi, Option.some.injEq] at hr
    subst hr
    rw [hcache] at hcache' hacc'
    rw [heq]
    exact inOrder_of_step hcorr hi hcache' hacc'

/-- The levels are coherent in every run whose steps are in order: in every state in which no call is in
    progress the LRU cache holds what Redis holds, and `get` answers what Redis holds. -/
theorem run_coherent (capacity : Nat) (store : Table Str Str) {actions : List Action} {s : SharedCache}
    (hm : Transition.Meets step InOrder (start capacity store) actions)
    (hr : Transition.run step (start capacity store) actions = some s) (hq : s.calls = []) :
    (∀ key value, s.held key = some value → s.stored key = some value) ∧
      ∀ key valueOut, ((s.cache.get key valueOut).1, (s.cache.get key valueOut).2.1) =
        ((s.stored key).isSome, (s.stored key).getD []) := by
  have h : s.Sound := Transition.run_invariant (fun _ _ _ hi hc ha => hi.step hc ha)
    (sound_start capacity store) hm hr
  obtain ⟨lru, store', heq, hcorr, hacc⟩ := h.both
  rw [hq] at hacc
  have hwithin : lru.entries.Within store' := by
    intro key value hlook
    rcases hacc key value hlook with hs | hmem
    · exact hs
    · cases hmem
  rw [heq]
  refine ⟨hwithin, ?_⟩
  intro key valueOut
  have hfront : (both lru store' s.calls).cache.Fronts store' := ⟨rfl, rfl, lru, rfl, hcorr, hwithin⟩
  exact (hfront.get key valueOut).2

/-- A call of `get` that misses in the LRU cache while another client sets the key to the value that Redis
    has. -/
def quietRefresh : List Action :=
  [.set (str "a") (str "1"), .step 0, .step 0, .set (str "b") (str "2"), .step 0, .step 0,
    .get (str "a") [], .step 0, .set (str "a") (str "1"), .step 1, .step 0, .step 1, .step 0]

theorem run_coherent_quietRefresh :
    ∃ s, Transition.run step (start 1 Table.empty) quietRefresh = some s ∧ s.calls = [] ∧
      (∀ key value, s.held key = some value → s.stored key = some value) ∧
        ∀ key valueOut, ((s.cache.get key valueOut).1, (s.cache.get key valueOut).2.1) =
          ((s.stored key).isSome, (s.stored key).getD []) :=
  ⟨_, rfl, rfl, run_coherent 1 Table.empty
    (by decide : Transition.Meets step InOrder (start 1 Table.empty) quietRefresh) rfl rfl⟩

/-- A call of `get` has read a value from Redis when the key is erased. -/
def lateBackfill : List Action :=
  [.set (str "a") (str "1"), .step 0, .step 0, .set (str "b") (str "2"), .step 0, .step 0,
    .get (str "a") [], .step 0, .step 0, .erase (str "a"), .step 1, .step 1, .step 0]

/-- The erased value is in the LRU cache for good, and is served. -/
theorem lateBackfill_serves_erased :
    ∃ s, Transition.run step (start 1 Table.empty) lateBackfill = some s ∧ s.calls = [] ∧
      s.stored (str "a") = none ∧ (s.cache.get (str "a") []).1 = true ∧
      (s.cache.get (str "a") []).2.1 = str "1" ∧
      ¬ ∀ key value, s.held key = some value → s.stored key = some value := by
  refine ⟨_, rfl, rfl, rfl, rfl, rfl, ?_⟩
  intro h
  have hs := h (str "a") (str "1") rfl
  cases hs

end SharedCache

end ModularNetServer
