import Mathlib.Data.List.Basic
import Mathlib.Tactic.TypeStar

/-!
# Reading a stream back

A reader takes one item from the front of a stream. Reading on until nothing is left gives at most one
list of items, and what an encoder wrote item by item is read back as the items that it wrote.
-/

namespace Codec

variable {β μ : Type*} {read : List β → Option (μ × List β)} {enc : μ → List β}

/-- A stream is read as a list of items, and nothing is left over. -/
inductive ReadsAs (read : List β → Option (μ × List β)) : List β → List μ → Prop
  | nil : ReadsAs read [] []
  | cons {stream rest : List β} {item : μ} {items : List μ} (h : read stream = some (item, rest))
      (hrest : ReadsAs read rest items) : ReadsAs read stream (item :: items)

/-- The encodings of items, one after the other, are read as these items. -/
theorem readsAs_flatMap {items : List μ}
    (henc : ∀ item ∈ items, ∀ rest, read (enc item ++ rest) = some (item, rest)) :
    ReadsAs read (items.flatMap enc) items := by
  induction items with
  | nil => exact .nil
  | cons item items ih =>
    rw [List.flatMap_cons]
    have hrest := ih (fun x hx => henc x (List.mem_cons_of_mem _ hx))
    exact .cons (henc item List.mem_cons_self _) hrest

/-- A stream is read in one way only. -/
theorem ReadsAs.unique (hnil : read [] = none) {stream : List β} {items items' : List μ}
    (h : ReadsAs read stream items) (h' : ReadsAs read stream items') : items = items' := by
  induction h generalizing items' with
  | nil =>
    cases h' with
    | nil => rfl
    | cons hread _ =>
      rw [hnil] at hread
      cases hread
  | cons hread _ ih =>
    cases h' with
    | nil =>
      rw [hnil] at hread
      cases hread
    | cons hread' hrest' =>
      rw [hread] at hread'
      cases hread'
      rw [ih hrest']

theorem readsAs_flatMap_iff (hnil : read [] = none) {items : List μ}
    (henc : ∀ item ∈ items, ∀ rest, read (enc item ++ rest) = some (item, rest)) {items' : List μ} :
    ReadsAs read (items.flatMap enc) items' ↔ items' = items := by
  constructor
  · intro h
    exact h.unique hnil (readsAs_flatMap henc)
  · rintro rfl
    exact readsAs_flatMap henc

end Codec
