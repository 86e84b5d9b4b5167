import Mathlib.Data.List.AList
import ModularNetServer.Json.Json
import ModularNetServer.Library.Table

/-!
# The configuration

`ConfigManager` (`config_manager.cpp`). A file that is loaded is given by its content, or by nothing if it
cannot be opened. Callbacks are values of a type `C`; running one is recorded.
-/

namespace ModularNetServer

open Cxx

/-- `Json::parse`, with what its users rely on: the members of an object have different names, and every
    string is UTF-8, so that it can be dumped. -/
structure JsonParser where
  parse : Str → Option Json
  parse_nil : parse [] = none
  distinct : ∀ content members, parse content = some (.object members) → (members.map Prod.fst).Nodup
  dumps : ∀ content members, parse content = some (.object members) →
    ∀ m ∈ members, ∃ text, m.2.dump = .ok text

/-- What can be thrown by a load. -/
inductive LoadError
  | invalidIterator (id : Nat)
  | json (e : Escape)

/-- What `it.key()` and `it.value()` are as `it` goes from `begin()` to `end()`: `null` has no elements, and
    only the elements of an object have a key. -/
def Json.iterate : Json → List (Except LoadError Str × Json)
  | .object members => members.map fun m => (.ok m.1, m.2)
  | .array items => items.map fun item => (.error (.invalidIterator 207), item)
  | .null => []
  | .boolean b => [(.error (.invalidIterator 207), .boolean b)]
  | .number text => [(.error (.invalidIterator 207), .number text)]
  | .string s => [(.error (.invalidIterator 207), .string s)]

/-- `ConfigManager`. -/
structure ConfigManager (C : Type*) where
  config : AList fun _ : Str => Str
  lastLoadedContent : Str
  keyCallbacks : Table Str C

namespace ConfigManager

variable {C : Type*}

/-- Before the first load. -/
def start : ConfigManager C := ⟨∅, [], Table.empty⟩

/-- `m_hot_reloadable_keys`. -/
def hotReloadableKeys : List Str :=
  [str "log_close", str "rate_limiter_close", str "interceptor_close", str "log_level", str "cache_mode"]

/-- `registerCallback`: `unordered_map::insert` keeps an earlier callback. -/
def registerCallback (m : ConfigManager C) (key : Str) (cb : C) : ConfigManager C :=
  if (m.keyCallbacks key).isSome then m else { m with keyCallbacks := m.keyCallbacks.insert key cb }

/-- The loop of `loadFromFile` for one member: the configuration and the changed keys. -/
def loadMember (firstLoad : Bool) (s : (AList fun _ : Str => Str) × List Str) (key newVal : Str) :
    (AList fun _ : Str => Str) × List Str :=
  let isChanged := decide (s.1.lookup key ≠ some newVal)
  let isHotReloadable := hotReloadableKeys.contains key
  if firstLoad || isHotReloadable then
    if isChanged then
      (s.1.insert key newVal, if !firstLoad && isHotReloadable then s.2 ++ [key] else s.2)
    else s
  else s

/-- The loop of `loadFromFile`. -/
def loadMembers (firstLoad : Bool) :
    List (Except LoadError Str × Json) → (AList fun _ : Str => Str) × List Str →
      Except LoadError ((AList fun _ : Str => Str) × List Str)
  | [], s => .ok s
  | (key, value) :: rest, s =>
    match key with
    | .error e => .error e
    | .ok key =>
      match value.dump with
      | .error e => .error (.json e)
      | .ok newVal => loadMembers firstLoad rest (loadMember firstLoad s key newVal)

/-- `loadFromFile`: its result, and the callbacks that it runs. Only the call of `parse` is guarded. -/
def loadFromFile (parse : Str → Option Json) (m : ConfigManager C) (file : Option Str) :
    Except LoadError (Bool × ConfigManager C × List C) :=
  match file with
  | none => .ok (false, m, [])
  | some content =>
    if content = m.lastLoadedContent then .ok (false, m, [])
    else
      match parse content with
      | none => .ok (false, m, [])
      | some j =>
        let firstLoad := m.config.entries.isEmpty
        match loadMembers firstLoad j.iterate (m.config, []) with
        | .error e => .error e
        | .ok (config, changedKeys) =>
          let callbacksToCall := if firstLoad then [] else changedKeys.filterMap m.keyCallbacks
          .ok (true, { m with config := config, lastLoadedContent := content }, callbacksToCall)

end ConfigManager

/-! ## Runs -/

/-- A call on the configuration. -/
inductive ConfigCall (C : Type*)
  | load (file : Option Str)
  | registerCallback (key : Str) (cb : C)

namespace ConfigManager

variable {C : Type*}

/-- A call as a step; after an exception there is none. -/
def step (p : JsonParser) (m : ConfigManager C) : ConfigCall C → Option (ConfigManager C)
  | .load file =>
    match m.loadFromFile p.parse file with
    | .error _ => none
    | .ok (_, m', _) => some m'
  | .registerCallback key cb => some (m.registerCallback key cb)

end ConfigManager

end ModularNetServer
