import ModularNetServer.Http.RangeHeaders
import ModularNetServer.Http.RawRequest

/-!
# The header map

The name and the value that `parseHeaders` takes from a line, and the map that a list of lines leaves.
-/

namespace ModularNetServer

open Cxx

namespace HttpRequest

/-- The line adds a field with the given name. -/
def IsField (key line : Str) : Prop := ∃ value, headerField line = some (key, value)

/-- `headers[key] = value`. -/
def addField (headers : Table Str Str) (kv : Str × Str) : Table Str Str := headers.insert kv.1 kv.2

/-- A line adds its field and no other. -/
theorem requestHeaders_parseHeaders {line : Str} {base base' : HttpBase} {more : Bool}
    (h : parseHeaders line base = .ok (more, base')) :
    base'.requestHeaders = (headerField line).elim base.requestHeaders (addField base.requestHeaders) := by
  rcases parseHeaders_cases h with ⟨hnone, rfl⟩ | ⟨key, value, length, hfield, rfl⟩
  · rw [hnone, Option.elim_none]
  · rw [hfield, Option.elim_some]
    rfl

theorem requestHeaders_of_isField {line key value : Str} {base base' : HttpBase} {more : Bool}
    (hfield : headerField line = some (key, value)) (h : parseHeaders line base = .ok (more, base')) :
    base'.requestHeaders key = some value := by
  rw [requestHeaders_parseHeaders h, hfield]
  exact Table.insert_self _ _ _

theorem requestHeaders_of_not_isField {line key : Str} {base base' : HttpBase} {more : Bool}
    (hfield : ¬ IsField key line) (h : parseHeaders line base = .ok (more, base')) :
    base'.requestHeaders key = base.requestHeaders key := by
  rw [requestHeaders_parseHeaders h]
  cases hline : headerField line with
  | none => rfl
  | some kv =>
    refine Table.insert_of_ne _ ?_ _
    rintro rfl
    exact hfield ⟨kv.2, hline⟩

/-- The first of some lines, and what the others make of its result. -/
theorem parseHeaderLines_cons {line : Str} {lines : List Str} {base base' : HttpBase}
    (h : parseHeaderLines base (line :: lines) = .ok base') :
    ∃ more mid, parseHeaders line base = .ok (more, mid) ∧ parseHeaderLines mid lines = .ok base' := by
  unfold parseHeaderLines at h
  cases hline : parseHeaders line base with
  | error e =>
    rw [hline] at h
    cases h
  | ok result =>
    rw [hline] at h
    exact ⟨result.1, result.2, rfl, h⟩

theorem parseHeaderLines_append {lines lines' : List Str} {base base' : HttpBase}
    (h : parseHeaderLines base (lines ++ lines') = .ok base') :
    ∃ mid, parseHeaderLines base lines = .ok mid ∧ parseHeaderLines mid lines' = .ok base' := by
  induction lines generalizing base with
  | nil => exact ⟨base, rfl, h⟩
  | cons line lines ih =>
    obtain ⟨more, next, hline, hrest⟩ := parseHeaderLines_cons h
    obtain ⟨mid, hlines, hlines'⟩ := ih hrest
    refine ⟨mid, ?_, hlines'⟩
    rw [parseHeaderLines, hline]
    exact hlines

/-- A header that no line names is as it was before. -/
theorem requestHeaders_kept {lines : List Str} {key : Str} {base base' : HttpBase}
    (h : parseHeaderLines base lines = .ok base') (hno : ∀ line ∈ lines, ¬ IsField key line) :
    base'.requestHeaders key = base.requestHeaders key := by
  induction lines generalizing base with
  | nil =>
    cases h
    rfl
  | cons line lines ih =>
    obtain ⟨more, mid, hline, hrest⟩ := parseHeaderLines_cons h
    rw [ih hrest fun l hl => hno l (List.mem_cons_of_mem _ hl)]
    exact requestHeaders_of_not_isField (hno line (by simp)) hline

/-- The last line with a name gives the header its value. -/
theorem requestHeaders_last {before after : List Str} {line key value : Str} {base base' : HttpBase}
    (h : parseHeaderLines base (before ++ line :: after) = .ok base')
    (hline : headerField line = some (key, value)) (hafter : ∀ l ∈ after, ¬ IsField key l) :
    base'.requestHeaders key = some value := by
  obtain ⟨mid, -, hrest⟩ := parseHeaderLines_append h
  obtain ⟨more, mid', hparse, hrest⟩ := parseHeaderLines_cons hrest
  rw [requestHeaders_kept hrest hafter]
  exact requestHeaders_of_isField hline hparse

end HttpRequest

end ModularNetServer
