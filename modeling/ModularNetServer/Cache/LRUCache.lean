import ModularNetServer.Library.Table

/-!
# The LRU cache

`LRUCache<K, V>` (`lru_cache.h`): a linked list of entries with the most recently used one in front, and
an index from keys to list iterators. An iterator is the address of a node, and every operation finds
the node in the list by it. A `get` is given what `value_out` holds before the call.
-/

namespace ModularNetServer

variable {K V : Type*}

/-- A node of `m_items`. -/
structure CacheNode (K V : Type*) where
  addr : Nat
  key : K
  value : V

/-- `LRUCache`, with the address of the next node. -/
structure LRUCache (K V : Type*) where
  capacity : Nat
  items : List (CacheNode K V)
  index : Table K Nat
  nextAddr : Nat

namespace LRUCache

/-- `LRUCache(size_t capacity)`. -/
def make (capacity : Nat) : LRUCache K V where
  capacity := capacity
  items := []
  index := Table.empty
  nextAddr := 0

/-- The node that an iterator stands for. -/
def node (c : LRUCache K V) (it : Nat) : Option (CacheNode K V) := c.items.find? (fun n => n.addr = it)

/-- `m_items.erase(it)`. -/
def eraseNode (c : LRUCache K V) (it : Nat) : LRUCache K V :=
  { c with items := c.items.filter (fun n => n.addr ≠ it) }

/-- `m_items.splice(m_items.begin(), m_items, it)`. -/
def splice (c : LRUCache K V) (it : Nat) : LRUCache K V :=
  match c.node it with
  | none => c
  | some n => { c with items := n :: (c.eraseNode it).items }

/-- `it->second = value`. -/
def setValue (c : LRUCache K V) (it : Nat) (value : V) : LRUCache K V :=
  { c with items := c.items.map (fun n => if n.addr = it then { n with value := value } else n) }

variable [DecidableEq K]

/-- Dropping the last entry. -/
def evict (c : LRUCache K V) : LRUCache K V :=
  match c.items.getLast? with
  | none => c
  | some last => { c with index := c.index.erase last.key, items := c.items.dropLast }

/-- `emplace_front` and `emplace`, which keeps an entry that the index has already. -/
def emplace (c : LRUCache K V) (key : K) (value : V) : LRUCache K V :=
  { c with
    items := ⟨c.nextAddr, key, value⟩ :: c.items
    index := if (c.index key).isSome then c.index else c.index.insert key c.nextAddr
    nextAddr := c.nextAddr + 1 }

/-- `put`. -/
def put (c : LRUCache K V) (key : K) (value : V) : LRUCache K V :=
  if c.capacity = 0 then c
  else
    match c.index key with
    | some it => (c.setValue it value).splice it
    | none =>
      let c := if c.capacity ≤ c.items.length then c.evict else c
      c.emplace key value

/-- `get`. -/
def get (c : LRUCache K V) (key : K) (valueOut : V) : Bool × V × LRUCache K V :=
  match c.index key with
  | none => (false, valueOut, c)
  | some it =>
    let c := c.splice it
    (true, (c.node it).elim valueOut CacheNode.value, c)

/-- `contains`. -/
def contains (c : LRUCache K V) (key : K) : Bool := (c.index key).isSome

/-- `erase`. -/
def erase (c : LRUCache K V) (key : K) : LRUCache K V :=
  match c.index key with
  | none => c
  | some it => { c.eraseNode it with index := c.index.erase key }

/-- `clear`. -/
def clear (c : LRUCache K V) : LRUCache K V := { c with items := [], index := Table.empty }

/-- `size`. -/
def size (c : LRUCache K V) : Nat := c.items.length

end LRUCache

/-- A call on a cache. -/
inductive CacheOp (K V : Type*)
  | put (key : K) (value : V)
  | get (key : K) (valueOut : V)
  | contains (key : K)
  | erase (key : K)
  | clear
  | size

/-- What a call shows. -/
inductive CacheOutput (V : Type*)
  | none
  | got (hit : Bool) (value : V)
  | answer (b : Bool)
  | count (n : Nat)

namespace LRUCache

variable [DecidableEq K]

/-- A call, with what it shows. -/
def apply (c : LRUCache K V) : CacheOp K V → CacheOutput V × LRUCache K V
  | .put key value => (.none, c.put key value)
  | .get key valueOut =>
    let (hit, value, c) := c.get key valueOut
    (.got hit value, c)
  | .contains key => (.answer (c.contains key), c)
  | .erase key => (.none, c.erase key)
  | .clear => (.none, c.clear)
  | .size => (.count c.size, c)

/-- A sequence of calls, with what they show. -/
def run (c : LRUCache K V) : List (CacheOp K V) → List (CacheOutput V) × LRUCache K V
  | [] => ([], c)
  | op :: ops => ((c.apply op).1 :: ((c.apply op).2.run ops).1, ((c.apply op).2.run ops).2)

end LRUCache

end ModularNetServer
