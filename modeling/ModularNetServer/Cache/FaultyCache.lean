import ModularNetServer.Library.Transition
import ModularNetServer.Cache.CacheAdapter

/-!
# The cache when Redis fails

The calls of `CacheAdapter` when the command that they send to Redis may fail: it returns false and has
no effect on the store. A failure is logged at most, and the call goes on.
-/

namespace ModularNetServer

open Cxx

namespace CacheAdapter

/-- `get`, when the `GET` that it may send is answered or not. -/
def getWith (answered : Bool) (c : CacheAdapter) (key valueOut : Str) : Bool × Str × CacheAdapter :=
  match c.getLru key valueOut with
  | (true, value, c) => (true, value, c)
  | (false, value, c) =>
    if answered then
      match c.getRedis key value with
      | (true, value) => (true, value, c.backfill key value)
      | (false, value) => (false, value, c)
    else (false, value, c)

/-- `set`, when the `SET` that it sends is answered or not. -/
def setWith (answered : Bool) (c : CacheAdapter) (key value : Str) : CacheAdapter :=
  let c := c.onLru (fun lru => lru.put key value)
  if answered then c.onRedis (fun redis => redis.insert key value) else c

/-- `erase`, when the `DEL` that it sends is answered or not. -/
def eraseWith (answered : Bool) (c : CacheAdapter) (key : Str) : CacheAdapter :=
  let c := c.onLru (fun lru => lru.erase key)
  if answered then c.onRedis (fun redis => redis.erase key) else c

/-- Without failures the calls are those of an adapter whose Redis never fails. -/
theorem with_answered (c : CacheAdapter) (key value : Str) :
    c.getWith true key value = c.get key value ∧ c.setWith true key value = c.set key value ∧
      c.eraseWith true key = c.erase key :=
  ⟨rfl, rfl, rfl⟩

end CacheAdapter

/-- An adapter, with the history: the value of each key by the calls that have completed, and what the
    calls of `get` that succeeded have returned, beside the value of the key at that time. -/
structure FaultyCache where
  cache : CacheAdapter
  current : Table Str Str
  reads : List (Option Str × Str)

namespace FaultyCache

/-- A new adapter in front of a store. -/
def start (capacity : Nat) (store : Table Str Str) : FaultyCache where
  cache := CacheAdapter.init .lruRedis capacity store
  current := store
  reads := []

/-- A call, with whether its command is answered. -/
inductive Action
  | get (answered : Bool) (key valueOut : Str)
  | set (answered : Bool) (key value : Str)
  | erase (answered : Bool) (key : Str)

/-- The history after a call. -/
def step (s : FaultyCache) : Action → Option FaultyCache
  | .get answered key valueOut =>
    let (hit, value, cache) := s.cache.getWith answered key valueOut
    some { s with
      cache := cache
      reads := if hit then s.reads ++ [(s.current key, value)] else s.reads }
  | .set answered key value =>
    some { s with
      cache := s.cache.setWith answered key value
      current := s.current.insert key value }
  | .erase answered key =>
    some { s with cache := s.cache.eraseWith answered key, current := s.current.erase key }

/-- No `get` has returned a value that was overwritten or removed before. -/
def Coherent (s : FaultyCache) : Prop := ∀ r ∈ s.reads, r.1 = some r.2

/-- The value that Redis holds for a key. -/
def stored (s : FaultyCache) (key : Str) : Option Str := s.cache.redis.bind (fun redis => redis key)

/-- The `SET` and `DEL` commands for a key are answered. -/
def WritesAnswered (key : Str) (_ : FaultyCache) : Action → Prop
  | .get _ _ _ => True
  | .set answered key' _ => key' = key → answered = true
  | .erase answered key' => key' = key → answered = true

/-- A `get` that finds nothing in the LRU cache and has an answer from Redis is not made for a key for
    which Redis still holds a value that a failed `SET` or `DEL` was to overwrite or to remove. -/
def ReadsNoLeftover (s : FaultyCache) : Action → Prop
  | .get answered key _ =>
    answered = true → s.cache.lru.all (fun lru => !lru.contains key) = true →
      ∀ value ∈ s.stored key, s.current key = some value
  | .set _ _ _ => True
  | .erase _ _ => True

end FaultyCache

end ModularNetServer
