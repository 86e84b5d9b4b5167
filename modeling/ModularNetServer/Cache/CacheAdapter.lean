import ModularNetServer.Library.CxxText
import ModularNetServer.Cache.LRUCache

/-!
# The cache

`CacheAdapter` (`cache_adapter.cpp`). The calls of `RedisClient` are those of an exact map that never
fails; its `get` clears `value_out` when there is no such key. A call is put together from the parts in
which it touches one level.
-/

namespace ModularNetServer

open Cxx

/-- `CacheMode`. -/
inductive CacheMode
  | lruOnly
  | redisOnly
  | lruRedis
  deriving DecidableEq

/-- `CacheAdapter`, with the map that the calls of `m_redis` act on. -/
structure CacheAdapter where
  mode : CacheMode
  lru : Option (LRUCache Str Str)
  redis : Option (Table Str Str)

/-- A call of a cache. -/
inductive AdapterOp
  | get (key valueOut : Str)
  | set (key value : Str)
  | erase (key : Str)
  | contains (key : Str)
  | clear

namespace CacheAdapter

/-- Does the mode use the LRU cache? -/
def usesLru (c : CacheAdapter) : Bool := c.mode = .lruOnly || c.mode = .lruRedis

/-- Does the mode use Redis? -/
def usesRedis (c : CacheAdapter) : Bool := c.mode = .redisOnly || c.mode = .lruRedis

/-- `init` on an adapter that has neither level yet. -/
def init (mode : CacheMode) (lruCapacity : Nat) (store : Table Str Str) : CacheAdapter where
  mode := mode
  lru := if mode = .lruOnly ∨ mode = .lruRedis then some (LRUCache.make lruCapacity) else none
  redis := if mode = .redisOnly ∨ mode = .lruRedis then some store else none

/-- The part of a call that changes the LRU cache. -/
def onLru (c : CacheAdapter) (f : LRUCache Str Str → LRUCache Str Str) : CacheAdapter :=
  if c.usesLru then { c with lru := c.lru.map f } else c

/-- The part of a call that changes Redis. -/
def onRedis (c : CacheAdapter) (f : Table Str Str → Table Str Str) : CacheAdapter :=
  if c.usesRedis then { c with redis := c.redis.map f } else c

/-- `get`: the look-up in the LRU cache. -/
def getLru (c : CacheAdapter) (key valueOut : Str) : Bool × Str × CacheAdapter :=
  if c.usesLru then
    match c.lru with
    | none => (false, valueOut, c)
    | some lru =>
      let (hit, value, lru) := lru.get key valueOut
      (hit, value, { c with lru := some lru })
  else (false, valueOut, c)

/-- `get`: the look-up in Redis. -/
def getRedis (c : CacheAdapter) (key valueOut : Str) : Bool × Str :=
  if c.usesRedis then
    match c.redis with
    | none => (false, valueOut)
    | some redis =>
      match redis key with
      | none => (false, [])
      | some value => (true, value)
  else (false, valueOut)

/-- `get`: the value that Redis had is put in the LRU cache. -/
def backfill (c : CacheAdapter) (key value : Str) : CacheAdapter :=
  if c.mode = .lruRedis then c.onLru (fun lru => lru.put key value) else c

/-- `get`. -/
def get (c : CacheAdapter) (key valueOut : Str) : Bool × Str × CacheAdapter :=
  match c.getLru key valueOut with
  | (true, value, c) => (true, value, c)
  | (false, value, c) =>
    match c.getRedis key value with
    | (true, value) => (true, value, c.backfill key value)
    | (false, value) => (false, value, c)

/-- `set`. -/
def set (c : CacheAdapter) (key value : Str) : CacheAdapter :=
  (c.onLru (fun lru => lru.put key value)).onRedis (fun redis => redis.insert key value)

/-- `erase`. -/
def erase (c : CacheAdapter) (key : Str) : CacheAdapter :=
  (c.onLru (fun lru => lru.erase key)).onRedis (fun redis => redis.erase key)

/-- `contains`. -/
def contains (c : CacheAdapter) (key : Str) : Bool :=
  (c.usesLru && c.lru.any (fun lru => lru.contains key)) ||
    (c.usesRedis && c.redis.any (fun redis => (redis key).isSome))

/-- `clear`, which leaves Redis alone. -/
def clear (c : CacheAdapter) : CacheAdapter := { c with lru := c.lru.map LRUCache.clear }

/-- A call, with what it shows. -/
def apply (c : CacheAdapter) : AdapterOp → CacheOutput Str × CacheAdapter
  | .get key valueOut =>
    let (hit, value, c) := c.get key valueOut
    (.got hit value, c)
  | .set key value => (.none, c.set key value)
  | .erase key => (.none, c.erase key)
  | .contains key => (.answer (c.contains key), c)
  | .clear => (.none, c.clear)

/-- A sequence of calls, with what they show. -/
def run (c : CacheAdapter) : List AdapterOp → List (CacheOutput Str) × CacheAdapter
  | [] => ([], c)
  | op :: ops => ((c.apply op).1 :: ((c.apply op).2.run ops).1, ((c.apply op).2.run ops).2)

end CacheAdapter

end ModularNetServer
