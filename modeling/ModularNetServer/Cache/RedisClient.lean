import ModularNetServer.Library.CxxText
import ModularNetServer.Library.Table

/-!
# The Redis client

`RedisClient` (`redis_client.cpp`). The commands go through `redisCommand`, which puts in for each `%s` the
C string it is given, and the text of a reply is read as a C string. The server is an exact map from keys
to values.
-/

namespace ModularNetServer

open Cxx

/-- What a `const char*` shows of a string: the bytes before the first NUL. -/
def cstr (s : Str) : Str := Scan.upTo 0 s

/-- A command, as the server receives it. -/
inductive RedisCommand
  | set (key value : Str)
  | get (key : Str)
  | del (key : Str)
  | exists (key : Str)

/-- `redisReply`, by its type. -/
inductive RedisReply
  | status (text : Str)
  | string (bytes : Str)
  | nil
  | integer (n : Int)

/-- The server: its reply and the map after the command. -/
def RedisCommand.serve (store : Table Str Str) : RedisCommand → RedisReply × Table Str Str
  | .set key value => (.status (str "OK"), store.insert key value)
  | .get key => ((store key).elim .nil .string, store)
  | .del key => (.integer (if (store key).isSome then 1 else 0), store.erase key)
  | .exists key => (.integer (if (store key).isSome then 1 else 0), store)

/-- `RedisClient`, with the map of the server it talks to; `connected` is `m_connected && m_ctx`. -/
structure RedisClient where
  connected : Bool
  store : Table Str Str

/-- A call of the client. -/
inductive RedisCall
  | set (key value : Str)
  | get (key valueOut : Str)
  | del (key : Str)
  | exists (key : Str)

/-- The key that a call is about. -/
def RedisCall.key : RedisCall → Str
  | .set key _ => key
  | .get key _ => key
  | .del key => key
  | .exists key => key

/-- The call may change what its key has. -/
def RedisCall.Updates : RedisCall → Prop
  | .set _ _ => True
  | .get _ _ => False
  | .del _ => True
  | .exists _ => False

namespace RedisClient

/-- `redisCommand`. -/
def redisCommand (c : RedisClient) (command : RedisCommand) : RedisReply × RedisClient :=
  ((command.serve c.store).1, { c with store := (command.serve c.store).2 })

/-- `set`. -/
def set (c : RedisClient) (key value : Str) : Bool × RedisClient :=
  if c.connected then
    match c.redisCommand (.set (cstr key) (cstr value)) with
    | (.status text, c) => (decide (cstr text = str "OK"), c)
    | (_, c) => (false, c)
  else (false, c)

/-- `get`: whether there is a value, `value` after the call, and the client. -/
def get (c : RedisClient) (key value : Str) : Bool × Str × RedisClient :=
  if c.connected then
    match c.redisCommand (.get (cstr key)) with
    | (.string bytes, c) => (true, cstr bytes, c)
    | (.nil, c) => (false, [], c)
    | (_, c) => (false, value, c)
  else (false, value, c)

/-- `del`. -/
def del (c : RedisClient) (key : Str) : Bool × RedisClient :=
  if c.connected then
    match c.redisCommand (.del (cstr key)) with
    | (.integer n, c) => (decide (0 < n), c)
    | (_, c) => (false, c)
  else (false, c)

/-- `exists`. -/
def «exists» (c : RedisClient) (key : Str) : Bool × RedisClient :=
  if c.connected then
    match c.redisCommand (.exists (cstr key)) with
    | (.integer n, c) => (decide (n = 1), c)
    | (_, c) => (false, c)
  else (false, c)

/-- The client after a call. -/
def call (c : RedisClient) : RedisCall → RedisClient
  | .set key value => (c.set key value).2
  | .get key value => (c.get key value).2.2
  | .del key => (c.del key).2
  | .exists key => (c.exists key).2

/-- The client after some calls. -/
def calls (c : RedisClient) (ops : List RedisCall) : RedisClient := ops.foldl call c

/-- What `get` and `exists` say about a key, whatever `value` was before. -/
def answers (c : RedisClient) (key : Str) : (Str → Bool × Str) × Bool :=
  (fun value => ((c.get key value).1, (c.get key value).2.1), (c.exists key).1)

/-! ## What callers rely on -/

/-- `get` returns what a successful `set` stored, until the key is set again or deleted. -/
def RoundTrips (c : RedisClient) (ops : List RedisCall) : Prop :=
  ∀ before key value between after, ops = before ++ .set key value :: between ++ after →
    ((c.calls before).set key value).1 = true →
    (∀ op ∈ between, op.key = key → ¬ op.Updates) →
    ∀ old, ((c.calls (before ++ .set key value :: between)).answers key).1 old = (true, value)

/-- A call changes nothing for the other keys of the calls. -/
def Independent (c : RedisClient) (ops : List RedisCall) : Prop :=
  ∀ before op after, ops = before ++ op :: after → ∀ other ∈ ops, other.key ≠ op.key →
    (c.calls (before ++ [op])).answers other.key = (c.calls before).answers other.key

/-- Another key of the calls has the same C string. -/
def Shared (ops : List RedisCall) (key : Str) : Prop :=
  ∃ op ∈ ops, op.key ≠ key ∧ cstr op.key = cstr key

/-- A call is safe, in the state before it: a value is set that has no NUL, and where another key has the
    same C string, the call leaves the entry as it is. -/
def Safe (ops : List RedisCall) (c : RedisClient) : RedisCall → Prop
  | .set key value =>
    0 ∉ value ∧ (Shared ops key → (c.store (cstr key)).map cstr = some value)
  | .get _ _ => True
  | .del key => Shared ops key → c.store (cstr key) = none
  | .exists _ => True

/-- All calls of a run are safe. -/
def AllSafe (c : RedisClient) (ops : List RedisCall) : Prop :=
  ∀ before op after, ops = before ++ op :: after → Safe ops (c.calls before) op

end RedisClient

end ModularNetServer
