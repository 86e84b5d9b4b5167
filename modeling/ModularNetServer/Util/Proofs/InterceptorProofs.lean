import Mathlib.Data.List.Induction
import ModularNetServer.Util.Interceptor

/-!
# Which registration a decision comes from

After any registrations the mode of a type is that of the latest of them, but its keys are those of the
first: only two of the three maps are overwritten.
-/

namespace ModularNetServer

open Cxx

/-- What `registerTypeRule` is given. -/
structure TypeRule where
  type : Str
  keys : List Str
  whitelist : Bool

/-- The decision that a rule stands for. -/
def TypeRule.intercepts (r : TypeRule) (key : Str) : Bool :=
  if r.whitelist then !r.keys.contains key else r.keys.contains key

/-- The registrations of a type, the oldest first. -/
def rulesOf (type : Str) (rules : List TypeRule) : List TypeRule := rules.filter (fun r => r.type = type)

/-- What the latest registration of a type decides. -/
def latestDecision (rules : List TypeRule) (type key : Str) : Bool :=
  match (rulesOf type rules).getLast? with
  | none => false
  | some r => r.intercepts key

/-- The first and the latest registration of a type agree on whether they list a key. -/
def KeyKept (rules : List TypeRule) (type key : Str) : Prop :=
  ∀ first ∈ (rulesOf type rules).head?, ∀ latest ∈ (rulesOf type rules).getLast?,
    (key ∈ first.keys ↔ key ∈ latest.keys)

theorem rulesOf_append_self (rules : List TypeRule) (r : TypeRule) :
    rulesOf r.type (rules ++ [r]) = rulesOf r.type rules ++ [r] := by
  simp [rulesOf, List.filter_append]

theorem rulesOf_append_of_ne {type : Str} (rules : List TypeRule) {r : TypeRule} (h : r.type ≠ type) :
    rulesOf type (rules ++ [r]) = rulesOf type rules := by
  simp [rulesOf, List.filter_append, h]

namespace Interceptor

/-- Rules are registered one after the other. -/
def registerAll (i : Interceptor) (rules : List TypeRule) : Interceptor :=
  rules.foldl (fun i r => i.registerTypeRule r.type r.keys r.whitelist) i

theorem registerAll_append (i : Interceptor) (rules : List TypeRule) (r : TypeRule) :
    i.registerAll (rules ++ [r]) = (i.registerAll rules).registerTypeRule r.type r.keys r.whitelist := by
  simp [registerAll]

/-- What the three maps hold for a type. -/
structure Entry (i : Interceptor) (type : Str) (first latest : Option TypeRule) : Prop where
  keys : i.typeInterceptorMap type = first.map TypeRule.keys
  mode : i.typeWhiteListMap type = latest.map TypeRule.whitelist
  enable : i.typeInterceptorEnableMap type = latest.map (fun _ => true)

/-- A registration leaves the entries of the other types as they are. -/
theorem Entry.of_ne {i : Interceptor} {type : Str} {first latest : Option TypeRule}
    (h : Entry i type first latest) {r : TypeRule} (hr : type ≠ r.type) :
    Entry (i.registerTypeRule r.type r.keys r.whitelist) type first latest := by
  unfold registerTypeRule
  split_ifs with hclose hkeys
  · exact h
  · exact ⟨h.keys, (Table.insert_of_ne _ hr _).trans h.mode, (Table.insert_of_ne _ hr _).trans h.enable⟩
  · exact ⟨(Table.insert_of_ne _ hr _).trans h.keys, (Table.insert_of_ne _ hr _).trans h.mode,
      (Table.insert_of_ne _ hr _).trans h.enable⟩

/-- A registration replaces the mode of its own type, but its keys only if there are none yet. -/
theorem Entry.register {i : Interceptor} {r : TypeRule} {first latest : Option TypeRule}
    (h : Entry i r.type first latest) (hopen : i.interceptorClose = false) :
    Entry (i.registerTypeRule r.type r.keys r.whitelist) r.type (first.or (some r)) (some r) := by
  unfold registerTypeRule
  rw [if_neg (by simp [hopen])]
  cases hfirst : first with
  | none =>
    have hnone : i.typeInterceptorMap r.type = none := by rw [h.keys, hfirst, Option.map_none]
    exact ⟨by simp [hnone], by simp, by simp⟩
  | some f =>
    have hsome : i.typeInterceptorMap r.type = some f.keys := by rw [h.keys, hfirst, Option.map_some]
    exact ⟨by simp [hsome], by simp, by simp⟩

theorem registerAll_open (rules : List TypeRule) :
    ((init false).registerAll rules).interceptorClose = false := by
  induction rules using List.reverseRecOn with
  | nil => rfl
  | append_singleton rules r ih =>
    rw [registerAll_append, registerTypeRule, if_neg (by simp [ih])]
    exact ih

/-- After any registrations the keys of a type are those of the first, and its mode is that of the latest. -/
theorem registerAll_entry (rules : List TypeRule) (type : Str) :
    Entry ((init false).registerAll rules) type (rulesOf type rules).head? (rulesOf type rules).getLast? := by
  induction rules using List.reverseRecOn with
  | nil => exact ⟨rfl, rfl, rfl⟩
  | append_singleton rules r ih =>
    rw [registerAll_append]
    by_cases hr : type = r.type
    · subst hr
      rw [rulesOf_append_self, List.head?_append, List.head?_cons, List.getLast?_append, List.getLast?_singleton,
        Option.some_or]
      exact ih.register (registerAll_open rules)
    · rw [rulesOf_append_of_ne rules (Ne.symm hr)]
      exact ih.of_ne hr

/-- The decision from the entries of a type. -/
theorem shouldIntercept_of_entry {i : Interceptor} {type : Str} {first latest : TypeRule}
    (h : Entry i type (some first) (some latest)) (hopen : i.interceptorClose = false) (key : Str) :
    i.shouldIntercept type key =
      if latest.whitelist then !decide (key ∈ first.keys) else decide (key ∈ first.keys) := by
  simp [shouldIntercept, hopen, h.keys, h.mode, h.enable]

theorem shouldIntercept_of_no_entry {i : Interceptor} {type : Str} (h : Entry i type none none) (key : Str) :
    i.shouldIntercept type key = false := by
  simp [shouldIntercept, h.enable]

/-- The decision is the one of the latest registration if and only if that lists the key exactly if the
    first one does. -/
theorem shouldIntercept_iff_keyKept (rules : List TypeRule) (type key : Str) :
    ((init false).registerAll rules).shouldIntercept type key = latestDecision rules type key ↔
      KeyKept rules type key := by
  have hentry := registerAll_entry rules type
  cases hrules : rulesOf type rules with
  | nil =>
    rw [hrules] at hentry
    rw [shouldIntercept_of_no_entry hentry]
    simp [latestDecision, KeyKept, hrules]
  | cons first rest =>
    obtain ⟨latest, hlatest⟩ : ∃ latest, (first :: rest).getLast? = some latest := by
      simp [List.getLast?_cons]
    rw [hrules, hlatest, List.head?_cons] at hentry
    rw [shouldIntercept_of_entry hentry (registerAll_open rules)]
    simp only [latestDecision, KeyKept, hrules, hlatest, List.head?_cons, Option.mem_def, Option.some.injEq,
      forall_eq', TypeRule.intercepts]
    cases latest.whitelist <;> simp [decide_eq_decide]

/-- A second black list for the same type is not in force. -/
theorem second_blacklist_ignored :
    let rules : List TypeRule :=
      [⟨str "uri_blacklist", [str "/a"], false⟩, ⟨str "uri_blacklist", [str "/b"], false⟩]
    ((init false).registerAll rules).shouldIntercept (str "uri_blacklist") (str "/b") ≠
      latestDecision rules (str "uri_blacklist") (str "/b") := by
  decide

end Interceptor

end ModularNetServer
