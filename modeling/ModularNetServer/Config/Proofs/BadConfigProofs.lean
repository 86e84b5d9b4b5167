import ModularNetServer.Config.ConfigManager
import ModularNetServer.Library.Transition

/-!
# Which files do no harm

A content that is no JSON at all is refused. One that is JSON but no object is either iterated, which throws
at the first element, or has no elements and counts as loaded.
-/

namespace ModularNetServer

open Cxx Transition

namespace ConfigManager

variable {C : Type*} {p : JsonParser} {m : ConfigManager C}

/-- The file has a JSON object in it. -/
def IsObject (p : JsonParser) (file : Option Str) : Prop :=
  ∃ content members, file = some content ∧ p.parse content = some (.object members)

/-- A load throws nothing, and it changes nothing unless there is an object to load. -/
def Harmless (p : JsonParser) (m : ConfigManager C) : ConfigCall C → Prop
  | .load file =>
    ∃ ok m' ran, m.loadFromFile p.parse file = .ok (ok, m', ran) ∧
      (¬ IsObject p file → ok = false ∧ m'.config = m.config ∧ m'.lastLoadedContent = m.lastLoadedContent)
  | .registerCallback _ _ => True

/-- A content other than the one loaded last is a JSON object, if it is JSON. -/
def ObjectIfJson (p : JsonParser) (m : ConfigManager C) : ConfigCall C → Prop
  | .load file =>
    ∀ content ∈ file, content ≠ m.lastLoadedContent → ∀ j, p.parse content = some j → IsObject p (some content)
  | .registerCallback _ _ => True

/-- The members of an object have values that can be dumped. -/
theorem loadMembers_object (firstLoad : Bool) {members : List (Str × Json)}
    (h : ∀ m ∈ members, ∃ text, m.2.dump = .ok text) (s : (AList fun _ : Str => Str) × List Str) :
    ∃ s', loadMembers firstLoad (Json.object members).iterate s = .ok s' := by
  simp only [Json.iterate]
  induction members generalizing s with
  | nil => exact ⟨s, rfl⟩
  | cons member members ih =>
    obtain ⟨text, htext⟩ := h member List.mem_cons_self
    simp only [List.map_cons, loadMembers, htext]
    exact ih (fun m hm => h m (List.mem_cons_of_mem _ hm)) _

/-- A value that is no object throws, or it has no elements. -/
theorem loadMembers_of_not_object (firstLoad : Bool) {j : Json} (h : ∀ members, j ≠ .object members)
    (s : (AList fun _ : Str => Str) × List Str) :
    (∃ e, loadMembers firstLoad j.iterate s = .error e) ∨ loadMembers firstLoad j.iterate s = .ok s := by
  cases j with
  | object members => exact absurd rfl (h members)
  | null => exact .inr rfl
  | array items =>
    cases items with
    | nil => exact .inr rfl
    | cons item items => exact .inl ⟨_, rfl⟩
  | boolean b => exact .inl ⟨_, rfl⟩
  | number text => exact .inl ⟨_, rfl⟩
  | string s => exact .inl ⟨_, rfl⟩

/-- What a load does. -/
theorem harmless_iff (call : ConfigCall C) : m.Harmless p call ↔ m.ObjectIfJson p call := by
  cases call with
  | registerCallback key cb => exact Iff.rfl
  | load file =>
    cases file with
    | none =>
      refine iff_of_true ⟨false, m, [], rfl, fun _ => ⟨rfl, rfl, rfl⟩⟩ ?_
      rintro content hcontent
      cases hcontent
    | some content =>
      simp only [Harmless, ObjectIfJson, Option.mem_def, Option.some.injEq, forall_eq', loadFromFile]
      by_cases hlast : content = m.lastLoadedContent
      · rw [if_pos hlast]
        exact iff_of_true ⟨false, m, [], rfl, fun _ => ⟨rfl, rfl, rfl⟩⟩ (fun hne => absurd hlast hne)
      rw [if_neg hlast]
      cases hparse : p.parse content with
      | none => exact iff_of_true ⟨false, m, [], rfl, fun _ => ⟨rfl, rfl, rfl⟩⟩ (fun _ j hj => by cases hj)
      | some j =>
        by_cases hobj : ∃ members, j = .object members
        · obtain ⟨members, rfl⟩ := hobj
          have hobject : IsObject p (some content) := ⟨content, members, rfl, hparse⟩
          obtain ⟨s, hs⟩ := loadMembers_object m.config.entries.isEmpty (p.dumps content members hparse)
            (m.config, [])
          refine iff_of_true ?_ (fun _ _ _ => hobject)
          simp only [hs]
          exact ⟨_, _, _, rfl, fun hno => absurd hobject hno⟩
        · have hno : ¬ IsObject p (some content) := by
            rintro ⟨content', members, hcontent, hmembers⟩
            cases hcontent
            exact hobj ⟨members, Option.some.inj (hparse.symm.trans hmembers)⟩
          refine iff_of_false ?_ (fun h => hno (h hlast j rfl))
          rintro ⟨ok, m', ran, hload, hsafe⟩
          rcases loadMembers_of_not_object m.config.entries.isEmpty (fun members hj => hobj ⟨members, hj⟩)
            (m.config, []) with ⟨e, he⟩ | hnone
          · simp only [he] at hload
            cases hload
          · simp only [hnone] at hload
            cases hload
            cases (hsafe hno).1

/-- In a sequence of calls no load does harm if and only if no load meets a new content that is JSON but not an
    object. -/
theorem meets_harmless_iff (p : JsonParser) (calls : List (ConfigCall C)) :
    Meets (step p) (Harmless p) start calls ↔ Meets (step p) (ObjectIfJson p) start calls :=
  @meets_congr _ _ _ _ (fun _ => True) _ (fun _ call _ => harmless_iff call) (fun _ _ _ _ _ _ => trivial) _
    trivial calls

/-- A parser of two contents that are no objects. -/
def twoContents : JsonParser where
  parse content :=
    if content = str "[1]" then some (.array [.number (str "1")])
    else if content = str "null" then some .null
    else none
  parse_nil := by decide
  distinct := by
    intro content members h
    split_ifs at h <;> cases h
  dumps := by
    intro content members h
    split_ifs at h <;> cases h

theorem not_harmless_of_parse {content : Str} {j : Json} (hcontent : content ≠ [])
    (hparse : p.parse content = some j) (hobj : ∀ members, j ≠ .object members) :
    ¬ Meets (step p) (Harmless p) (start : ConfigManager C) [.load (some content)] := by
  rintro ⟨hload, -⟩
  rw [harmless_iff] at hload
  obtain ⟨content', members, heq, hmembers⟩ := hload content rfl hcontent j hparse
  cases heq
  exact hobj members (Option.some.inj (hparse.symm.trans hmembers))

/-- The first content throws, the second counts as loaded. -/
theorem no_object_harms :
    ¬ Meets (step twoContents) (Harmless twoContents) (start : ConfigManager Str) [.load (some (str "[1]"))] ∧
      ¬ Meets (step twoContents) (Harmless twoContents) (start : ConfigManager Str) [.load (some (str "null"))] := by
  have harray : twoContents.parse (str "[1]") = some (.array [.number (str "1")]) := rfl
  have hnull : twoContents.parse (str "null") = some .null := rfl
  exact ⟨not_harmless_of_parse (by decide) harray (fun _ h => by cases h),
    not_harmless_of_parse (by decide) hnull (fun _ h => by cases h)⟩

end ConfigManager

end ModularNetServer
