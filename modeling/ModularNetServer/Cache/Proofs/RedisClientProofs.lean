import ModularNetServer.Cache.RedisClient

/-!
# What the Redis client keeps of its values and keys

Two keys with one C string are one key to the server, and a value comes back as its C string. The calls
answer as those of a map from the full strings if and only if no call makes use of either.
-/

namespace ModularNetServer

open Cxx

theorem cstr_cstr (s : Str) : cstr (cstr s) = cstr s := by
  unfold cstr Scan.upTo
  exact List.takeWhile_idem

theorem cstr_eq_self_iff {s : Str} : cstr s = s ↔ 0 ∉ s := by
  unfold cstr Scan.upTo
  rw [List.takeWhile_eq_self_iff]
  constructor
  · intro h hmem
    simpa using h 0 hmem
  · intro h b hb
    simp only [decide_not, Bool.not_eq_true', decide_eq_false_iff_not]
    rintro rfl
    exact h hb

namespace RedisClient

variable {c : RedisClient}

/-! ## Single calls -/

/-- What the client reads under a key. -/
def reads (c : RedisClient) (key : Str) : Option Str := (c.store (cstr key)).map cstr

/-- What `get` and `exists` say is what is read. -/
theorem answers_eq (hc : c.connected = true) (key : Str) :
    c.answers key = (fun _ => (c.reads key).elim (false, []) (true, ·), (c.reads key).isSome) := by
  unfold answers get «exists» redisCommand reads
  cases hstore : c.store (cstr key) <;> simp [hc, RedisCommand.serve, hstore]

theorem answers_eq_iff {c' : RedisClient} (hc : c.connected = true) (hc' : c'.connected = true) (key : Str) :
    c.answers key = c'.answers key ↔ c.reads key = c'.reads key := by
  rw [answers_eq hc, answers_eq hc']
  constructor
  · intro h
    have hget := congrFun (congrArg Prod.fst h) []
    cases hr : c.reads key <;> cases hr' : c'.reads key <;> simp_all
  · intro h
    rw [h]

/-- The map of the server after a call. -/
theorem store_call (hc : c.connected = true) (op : RedisCall) :
    (c.call op).store =
      match op with
      | .set key value => c.store.insert (cstr key) (cstr value)
      | .get _ _ => c.store
      | .del key => c.store.erase (cstr key)
      | .exists _ => c.store := by
  cases op with
  | set key value => simp [call, set, hc, redisCommand, RedisCommand.serve]
  | get key valueOut =>
    cases hstore : c.store (cstr key) <;> simp [call, get, hc, redisCommand, RedisCommand.serve, hstore]
  | del key => simp [call, del, hc, redisCommand, RedisCommand.serve]
  | «exists» key => simp [call, «exists», hc, redisCommand, RedisCommand.serve]

theorem connected_call (op : RedisCall) : (c.call op).connected = c.connected := by
  cases op with
  | set key value =>
    simp only [call, set, redisCommand, RedisCommand.serve]
    split_ifs <;> rfl
  | get key valueOut =>
    simp only [call, get, redisCommand, RedisCommand.serve]
    split_ifs
    · cases c.store (cstr key) <;> rfl
    · rfl
  | del key =>
    simp only [call, del, redisCommand, RedisCommand.serve]
    split_ifs <;> rfl
  | «exists» key =>
    simp only [call, «exists», redisCommand, RedisCommand.serve]
    split_ifs <;> rfl

theorem connected_calls (ops : List RedisCall) : (c.calls ops).connected = c.connected := by
  induction ops generalizing c with
  | nil => rfl
  | cons op ops ih =>
    have hrest := @ih (c.call op)
    rw [connected_call] at hrest
    exact hrest

theorem calls_append (before after : List RedisCall) : c.calls (before ++ after) = (c.calls before).calls after :=
  List.foldl_append

theorem set_connected_iff (key value : Str) : (c.set key value).1 = true ↔ c.connected = true := by
  unfold set redisCommand RedisCommand.serve
  split_ifs with hc
  · simp only [hc, iff_true]
    decide
  · simp [hc]

/-! ## One call and the other keys -/

/-- A key with another C string reads as before. -/
theorem reads_call_of_ne (hc : c.connected = true) {op : RedisCall} {key : Str} (h : cstr key ≠ cstr op.key) :
    (c.call op).reads key = c.reads key := by
  unfold reads
  rw [store_call hc]
  cases op with
  | set k v => exact congrArg (Option.map cstr) (Table.insert_of_ne _ h _)
  | get k v => rfl
  | del k => exact congrArg (Option.map cstr) (Table.erase_of_ne _ h)
  | «exists» k => rfl

/-- A call that may not change its key changes nothing. -/
theorem reads_call_of_not_updates (hc : c.connected = true) {op : RedisCall} (h : ¬ op.Updates) (key : Str) :
    (c.call op).reads key = c.reads key := by
  unfold reads
  rw [store_call hc]
  cases op with
  | set k v => exact absurd trivial h
  | get k v => rfl
  | del k => exact absurd trivial h
  | «exists» k => rfl

theorem reads_set (hc : c.connected = true) {key key' : Str} (h : cstr key' = cstr key) (value : Str) :
    (c.call (.set key value)).reads key' = some (cstr value) := by
  unfold reads
  rw [store_call hc, h]
  dsimp only
  rw [Table.insert_self, Option.map_some, cstr_cstr]

theorem reads_del (hc : c.connected = true) {key key' : Str} (h : cstr key' = cstr key) :
    (c.call (.del key)).reads key' = none := by
  unfold reads
  rw [store_call hc, h]
  dsimp only
  rw [Table.erase_self, Option.map_none]

/-- A safe call changes nothing for the other keys. -/
theorem reads_of_safe {ops : List RedisCall} (hc : c.connected = true) {op other : RedisCall}
    (hsafe : Safe ops c op) (hother : other ∈ ops) (hne : other.key ≠ op.key) :
    (c.call op).reads other.key = c.reads other.key := by
  by_cases hkey : cstr other.key = cstr op.key
  · cases op with
    | set key value =>
      change cstr other.key = cstr key at hkey
      obtain ⟨hnul, hshared⟩ := hsafe
      have hentry := hshared ⟨other, hother, hne, hkey⟩
      have hbefore : c.reads other.key = some value := by
        unfold reads
        rw [hkey]
        exact hentry
      rw [reads_set hc hkey, hbefore, cstr_eq_self_iff.mpr hnul]
    | get key valueOut => exact reads_call_of_not_updates hc id _
    | del key =>
      change cstr other.key = cstr key at hkey
      have hentry : c.store (cstr key) = none := hsafe ⟨other, hother, hne, hkey⟩
      have hbefore : c.reads other.key = none := by
        unfold reads
        rw [hkey, hentry, Option.map_none]
      rw [reads_del hc hkey, hbefore]
    | «exists» key => exact reads_call_of_not_updates hc id _
  · exact reads_call_of_ne hc hkey

/-! ## Runs of calls -/

theorem independent_of_allSafe {ops : List RedisCall} (hc : c.connected = true) (h : AllSafe c ops) :
    Independent c ops := by
  intro before op after hops other hother hne
  have hbefore : (c.calls before).connected = true := (connected_calls before).trans hc
  rw [calls_append, answers_eq_iff ((connected_calls _).trans hbefore) hbefore]
  exact reads_of_safe hbefore (h before op after hops) hother hne

/-- Calls that do not update a key leave it as it was, where the calls are independent. -/
theorem reads_between {ops : List RedisCall} (hc : c.connected = true) (h : Independent c ops)
    {before between after : List RedisCall} (hops : ops = before ++ between ++ after) {keyed : RedisCall}
    (hkeyed : keyed ∈ ops) (hno : ∀ op ∈ between, op.key = keyed.key → ¬ op.Updates) :
    (c.calls (before ++ between)).reads keyed.key = (c.calls before).reads keyed.key := by
  induction between using List.reverseRecOn generalizing after with
  | nil => rw [List.append_nil]
  | append_singleton between op ih =>
    have hops' : ops = before ++ between ++ op :: after := by
      rw [hops]
      simp
    have hrest := ih hops' fun o ho => hno o (List.mem_append_left _ ho)
    have hconn : (c.calls (before ++ between)).connected = true := (connected_calls _).trans hc
    have hlast : (c.calls (before ++ between ++ [op])).reads keyed.key =
        (c.calls (before ++ between)).reads keyed.key := by
      by_cases hkey : op.key = keyed.key
      · rw [calls_append]
        exact reads_call_of_not_updates hconn (hno op (by simp) hkey) _
      · have hanswers := h (before ++ between) op after hops' keyed hkeyed (Ne.symm hkey)
        exact (answers_eq_iff ((connected_calls _).trans hc) hconn _).mp hanswers
    rw [← List.append_assoc, hlast, hrest]

theorem roundTrips_of_allSafe {ops : List RedisCall} (hc : c.connected = true) (h : AllSafe c ops) :
    RoundTrips c ops := by
  intro before key value between after hops _ hno old
  have hsplit : ops = before ++ .set key value :: (between ++ after) := by
    rw [hops]
    simp
  have hops' : ops = (before ++ [.set key value]) ++ between ++ after := by
    rw [hops]
    simp
  have hmem : RedisCall.set key value ∈ ops := by
    rw [hsplit]
    simp
  have hbefore : (c.calls before).connected = true := (connected_calls before).trans hc
  have hset : (c.calls (before ++ [.set key value])).reads key = some (cstr value) := by
    rw [calls_append]
    exact reads_set hbefore rfl value
  have hkept := reads_between hc (independent_of_allSafe hc h) hops' hmem hno
  have hnul : cstr value = value := cstr_eq_self_iff.mpr (h before _ _ hsplit).1
  have heq : before ++ .set key value :: between = (before ++ [.set key value]) ++ between := by simp
  have hread : (c.calls (before ++ [.set key value] ++ between)).reads key = some value :=
    hkept.trans (hset.trans (congrArg some hnul))
  rw [heq, answers_eq ((connected_calls _).trans hc)]
  dsimp only
  rw [hread]
  rfl

/-- Where callers can rely on the client, every call is safe. -/
theorem allSafe_of_reliable {ops : List RedisCall} (hc : c.connected = true) (hround : RoundTrips c ops)
    (hind : Independent c ops) : AllSafe c ops := by
  intro before op after hops
  have hbefore : (c.calls before).connected = true := (connected_calls before).trans hc
  have hkept : ∀ other ∈ ops, other.key ≠ op.key →
      ((c.calls before).call op).reads other.key = (c.calls before).reads other.key := by
    intro other hother hne
    have hanswers := hind before op after hops other hother hne
    rw [calls_append] at hanswers
    exact (answers_eq_iff ((connected_calls [op]).trans hbefore) hbefore _).mp hanswers
  cases op with
  | set key value =>
    have hanswer := hround before key value [] after (by rw [hops]; simp)
      ((set_connected_iff key value).mpr hbefore) (by simp) []
    have hread : ((c.calls before).calls [.set key value]).reads key = some (cstr value) :=
      reads_set hbefore rfl value
    have hvalue : cstr value = value := by
      rw [calls_append, answers_eq ((connected_calls _).trans hbefore)] at hanswer
      dsimp only at hanswer
      rw [hread] at hanswer
      exact congrArg Prod.snd hanswer
    refine ⟨cstr_eq_self_iff.mp hvalue, ?_⟩
    rintro ⟨other, hother, hne, hkey⟩
    have hother' := hkept other hother hne
    rw [reads_set hbefore hkey, hvalue] at hother'
    unfold reads at hother'
    rw [hkey] at hother'
    exact hother'.symm
  | get key valueOut => trivial
  | del key =>
    rintro ⟨other, hother, hne, hkey⟩
    have hother' := hkept other hother hne
    rw [reads_del hbefore hkey] at hother'
    unfold reads at hother'
    rw [hkey] at hother'
    exact Option.map_eq_none_iff.mp hother'.symm
  | «exists» key => trivial

/-- Callers can rely on the client if and only if it is not connected, so that no `set` succeeds, or every
    call is safe. -/
theorem reliable_iff (c : RedisClient) (ops : List RedisCall) :
    RoundTrips c ops ∧ Independent c ops ↔ c.connected = false ∨ AllSafe c ops := by
  cases hc : c.connected with
  | false =>
    simp only [true_or, iff_true]
    constructor
    · intro before key value between after _ hset
      rw [set_connected_iff, connected_calls, hc] at hset
      cases hset
    · intro before op after _ other _ _
      have hanswers : ∀ ops, (c.calls ops).answers other.key = (fun value => (false, value), false) := by
        intro ops
        have hops : (c.calls ops).connected = false := (connected_calls ops).trans hc
        simp [answers, get, «exists», hops]
      rw [hanswers, hanswers]
  | true =>
    simp only [Bool.true_eq_false, false_or]
    exact ⟨fun h => allSafe_of_reliable hc h.1 h.2,
      fun h => ⟨roundTrips_of_allSafe hc h, independent_of_allSafe hc h⟩⟩

/-- A value with a NUL comes back cut, and two keys that differ after a NUL are one. -/
theorem set_nul_not_returned :
    ¬ ∀ (c : RedisClient) (ops : List RedisCall), RoundTrips c ops ∧ Independent c ops := by
  intro h
  have hround := (h ⟨true, Table.empty⟩ [.set (str "k") [97, 0, 98]]).1 [] (str "k") [97, 0, 98] [] [] rfl
    (by decide) (by simp) []
  exact absurd hround (by decide)

end RedisClient

end ModularNetServer
