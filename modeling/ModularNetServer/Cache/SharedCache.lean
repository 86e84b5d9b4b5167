import ModularNetServer.Library.Transition
import ModularNetServer.Cache.CacheAdapter
import ModularNetServer.Cache.RecencyList

/-!
# The cache shared by threads

Calls of `get`, `set` and `erase` on one `CacheAdapter` by any number of clients. Each part of a call
that touches one level is atomic, and the parts of different calls interleave freely.
-/

namespace ModularNetServer

open Cxx

/-- What a call in progress does next. -/
inductive CacheCall
  | getLru (key valueOut : Str)
  | getRedis (key valueOut : Str)
  | backfill (key value : Str)
  | setLru (key value : Str)
  | setRedis (key value : Str)
  | eraseLru (key : Str)
  | eraseRedis (key : Str)
  deriving DecidableEq

/-- The next part of a call, with what is left of the call. -/
def CacheCall.step (c : CacheAdapter) : CacheCall → CacheAdapter × Option CacheCall
  | .getLru key valueOut =>
    let (hit, value, c) := c.getLru key valueOut
    (c, if hit then none else some (.getRedis key value))
  | .getRedis key valueOut =>
    let (hit, value) := c.getRedis key valueOut
    (c, if hit then some (.backfill key value) else none)
  | .backfill key value => (c.backfill key value, none)
  | .setLru key value => (c.onLru (fun lru => lru.put key value), some (.setRedis key value))
  | .setRedis key value => (c.onRedis (fun redis => redis.insert key value), none)
  | .eraseLru key => (c.onLru (fun lru => lru.erase key), some (.eraseRedis key))
  | .eraseRedis key => (c.onRedis (fun redis => redis.erase key), none)

/-- The adapter and the calls in progress. -/
structure SharedCache where
  cache : CacheAdapter
  calls : List CacheCall

namespace SharedCache

/-- A new adapter in front of a store. -/
def start (capacity : Nat) (store : Table Str Str) : SharedCache where
  cache := CacheAdapter.init .lruRedis capacity store
  calls := []

/-- What clients do: they call, or a call takes its next part. -/
inductive Action
  | get (key valueOut : Str)
  | set (key value : Str)
  | erase (key : Str)
  | step (i : Nat)
  deriving DecidableEq

/-- The `i`-th call goes on, or is over. -/
def setCall (calls : List CacheCall) (i : Nat) : Option CacheCall → List CacheCall
  | none => calls.eraseIdx i
  | some call => calls.set i call

/-- A step. -/
def step (s : SharedCache) : Action → Option SharedCache
  | .get key valueOut => some { s with calls := s.calls ++ [.getLru key valueOut] }
  | .set key value => some { s with calls := s.calls ++ [.setLru key value] }
  | .erase key => some { s with calls := s.calls ++ [.eraseLru key] }
  | .step i =>
    match s.calls[i]? with
    | none => none
    | some call => some ⟨(call.step s.cache).1, setCall s.calls i (call.step s.cache).2⟩

/-- The value that the LRU cache holds for a key. -/
def held (s : SharedCache) (key : Str) : Option Str :=
  s.cache.lru.bind (fun lru => RecencyList.lookup (lru.items.map (fun n => (n.key, n.value))) key)

/-- The value that Redis holds for a key. -/
def stored (s : SharedCache) (key : Str) : Option Str := s.cache.redis.bind (fun redis => redis key)

/-- The part that a call takes next fits what the other calls have done: what `get` puts in the LRU cache
    is still what Redis holds, or is about to be set there; and what `set` and `erase` do in Redis
    contradicts nothing that the LRU cache holds, unless it is about to be set. -/
def CallInOrder (s : SharedCache) : CacheCall → Prop
  | .backfill key value =>
    s.cache.lru.any (fun lru => lru.capacity = 0) = true ∨ s.stored key = some value ∨
      .setRedis key value ∈ s.calls
  | .setRedis key value => ∀ x ∈ s.held key, x = value ∨ .setRedis key x ∈ s.calls
  | .eraseRedis key => ∀ x ∈ s.held key, .setRedis key x ∈ s.calls
  | _ => True

instance (s : SharedCache) : (call : CacheCall) → Decidable (s.CallInOrder call)
  | .backfill _ _ => inferInstanceAs (Decidable (_ ∨ _ ∨ _))
  | .setRedis _ _ => inferInstanceAs (Decidable (∀ x ∈ s.held _, _ ∨ _))
  | .eraseRedis _ => inferInstanceAs (Decidable (∀ x ∈ s.held _, _))
  | .getLru _ _ => isTrue trivial
  | .getRedis _ _ => isTrue trivial
  | .setLru _ _ => isTrue trivial
  | .eraseLru _ => isTrue trivial

/-- The step of a call is in order. -/
def InOrder (s : SharedCache) : Action → Prop
  | .step i => ∀ call ∈ s.calls[i]?, s.CallInOrder call
  | _ => True

instance (s : SharedCache) : (action : Action) → Decidable (s.InOrder action)
  | .step i => inferInstanceAs (Decidable (∀ call ∈ s.calls[i]?, s.CallInOrder call))
  | .get _ _ => isTrue trivial
  | .set _ _ => isTrue trivial
  | .erase _ => isTrue trivial

end SharedCache

end ModularNetServer
