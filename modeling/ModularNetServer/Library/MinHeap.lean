import Mathlib.Data.List.Perm.Basic
import Mathlib.Data.Nat.Init
import Mathlib.Tactic.TypeStar

/-!
# Binary heaps in arrays

`std::priority_queue` with the least key on top, with the algorithms of its reference library: a
new item is sifted up, and the item that replaces the top is sunk along the smaller children to a
leaf and sifted up from there. `MinHeap` carries the heap order, and a heap is used through the
items it holds (`push_perm`, `pop_perm`) and through its top being the least of them (`top_le`).
-/

namespace Heap

variable {α : Type*}

/-- The key at a position; positions outside the array do not matter. -/
def keyAt (key : α → Int) (a : Array α) (i : Nat) : Int := (a[i]?).elim 0 key

/-- The position above a position. -/
def parent (i : Nat) : Nat := (i - 1) / 2

/-- `push_heap` from a position: exchange with the parent while the parent's key is greater. -/
def siftUp (key : α → Int) : Nat → Array α → Nat → Array α
  | 0, a, _ => a
  | fuel + 1, a, i =>
    if 0 < i ∧ keyAt key a i < keyAt key a (parent i) then
      siftUp key fuel (a.swapIfInBounds i (parent i)) (parent i)
    else a

/-- The child with the smaller key, the right one if they are equal. -/
def smallerChild (key : α → Int) (a : Array α) (i : Nat) : Nat :=
  if 2 * i + 2 < a.size ∧ keyAt key a (2 * i + 2) ≤ keyAt key a (2 * i + 1) then 2 * i + 2
  else 2 * i + 1

/-- The descent of `pop_heap`: exchange with the smaller child down to a leaf. -/
def sink (key : α → Int) : Nat → Array α → Nat → Array α × Nat
  | 0, a, i => (a, i)
  | fuel + 1, a, i =>
    if 2 * i + 1 < a.size then
      sink key fuel (a.swapIfInBounds i (smallerChild key a i)) (smallerChild key a i)
    else (a, i)

/-- `push`. -/
def push (key : α → Int) (a : Array α) (x : α) : Array α := siftUp key a.size (a.push x) a.size

/-- `pop`: the last item replaces the top. -/
def pop (key : α → Int) (a : Array α) : Array α :=
  let b := (a.swapIfInBounds 0 (a.size - 1)).pop
  let (c, leaf) := sink key b.size b 0
  siftUp key leaf c leaf

/-- No item has a smaller key than its parent. -/
def Ordered (key : α → Int) (a : Array α) : Prop :=
  ∀ i, 0 < i → i < a.size → keyAt key a (parent i) ≤ keyAt key a i

/-- What sifting up from `hole` needs: only the item there may be out of order with its parent. -/
structure UpOrder (key : α → Int) (a : Array α) (hole : Nat) : Prop where
  except : ∀ i, 0 < i → i < a.size → i ≠ hole → keyAt key a (parent i) ≤ keyAt key a i
  grand : 0 < hole → ∀ i, 0 < i → i < a.size → parent i = hole →
    keyAt key a (parent hole) ≤ keyAt key a i

/-- What sinking from `hole` needs: only the item there may be out of order, with any neighbour. -/
structure DownOrder (key : α → Int) (a : Array α) (hole : Nat) : Prop where
  except : ∀ i, 0 < i → i < a.size → i ≠ hole → parent i ≠ hole →
    keyAt key a (parent i) ≤ keyAt key a i
  grand : 0 < hole → ∀ i, 0 < i → i < a.size → parent i = hole →
    keyAt key a (parent hole) ≤ keyAt key a i

variable {key : α → Int} {a : Array α}

/-! ## Exchanging two items -/

theorem parent_lt {i : Nat} (h : 0 < i) : parent i < i := by
  unfold parent
  omega

theorem parent_le_size {i n : Nat} (hi : i < n) : parent i < n := by
  unfold parent
  omega

theorem keyAt_swap {i j : Nat} (hi : i < a.size) (hj : j < a.size) (m : Nat) :
    keyAt key (a.swapIfInBounds i j) m =
      if m = i then keyAt key a j else if m = j then keyAt key a i else keyAt key a m := by
  unfold keyAt
  rw [Array.swapIfInBounds_def, dif_pos hi, dif_pos hj, Array.getElem?_swap]
  grind

theorem swap_perm {i j : Nat} : (a.swapIfInBounds i j).toList.Perm a.toList := by
  rw [Array.swapIfInBounds_def]
  split_ifs with hi hj
  · exact (Array.swap_perm hi hj).toList
  · exact List.Perm.refl _
  · exact List.Perm.refl _

/-! ## Sifting up -/

theorem UpOrder.move {hole : Nat} (h : UpOrder key a hole) (hpos : 0 < hole) (hlt : hole < a.size)
    (hgt : keyAt key a hole < keyAt key a (parent hole)) :
    UpOrder key (a.swapIfInBounds hole (parent hole)) (parent hole) := by
  have hp := parent_lt hpos
  have hpl : parent hole < a.size := by omega
  constructor
  · intro i hi hil hne
    rw [Array.size_swapIfInBounds] at hil
    rw [keyAt_swap hlt hpl, keyAt_swap hlt hpl]
    by_cases hih : i = hole
    · subst hih
      rw [if_neg (by omega), if_pos rfl, if_pos rfl]
      exact Int.le_of_lt hgt
    · rw [if_neg hih, if_neg hne]
      have h1 := h.except i hi hil hih
      split_ifs with h2 h3
      · exact h.grand hpos i hi hil h2
      · rw [h3] at h1
        omega
      · exact h1
  · intro hq i hi hil hpi
    rw [Array.size_swapIfInBounds] at hil
    have hqp := parent_lt hq
    rw [keyAt_swap hlt hpl, keyAt_swap hlt hpl, if_neg (by omega), if_neg (by omega)]
    have hgrand := h.except (parent hole) hq hpl (by omega)
    by_cases hih : i = hole
    · rw [if_pos hih]
      exact hgrand
    · rw [if_neg hih, if_neg (by have := parent_lt hi; omega)]
      have h1 := h.except i hi hil hih
      rw [hpi] at h1
      omega

theorem siftUp_ordered {fuel hole : Nat} (hfuel : hole ≤ fuel) (hlt : hole < a.size)
    (h : UpOrder key a hole) : Ordered key (siftUp key fuel a hole) := by
  induction fuel generalizing a hole with
  | zero =>
    intro i hi hil
    exact h.except i hi hil (by omega)
  | succ fuel ih =>
    unfold siftUp
    split_ifs with hc
    · have hp := parent_lt hc.1
      exact ih (by omega) (by rw [Array.size_swapIfInBounds]; omega) (h.move hc.1 hlt hc.2)
    · intro i hi hil
      by_cases hih : i = hole
      · subst hih
        omega
      · exact h.except i hi hil hih

theorem siftUp_perm (fuel : Nat) (a : Array α) (hole : Nat) :
    (siftUp key fuel a hole).toList.Perm a.toList := by
  induction fuel generalizing a hole with
  | zero => exact List.Perm.refl _
  | succ fuel ih =>
    unfold siftUp
    split_ifs
    · exact (ih _ _).trans swap_perm
    · exact List.Perm.refl _

/-- Sifting up an item that is not smaller than the top leaves the top. -/
theorem siftUp_top {fuel hole : Nat} (hlt : hole < a.size) (hpos : 0 < hole)
    (h : keyAt key a 0 ≤ keyAt key a hole) : (siftUp key fuel a hole)[0]? = a[0]? := by
  induction fuel generalizing a hole with
  | zero => rfl
  | succ fuel ih =>
    unfold siftUp
    split_ifs with hc
    · have hp := parent_lt hc.1
      have hp0 : 0 < parent hole := by
        rcases Nat.eq_zero_or_pos (parent hole) with h0 | h0
        · rw [h0] at hc
          omega
        · exact h0
      have hpl : parent hole < a.size := by omega
      have htop : (a.swapIfInBounds hole (parent hole))[0]? = a[0]? := by
        rw [Array.swapIfInBounds_def, dif_pos hlt, dif_pos hpl, Array.getElem?_swap]
        grind
      rw [ih (by rw [Array.size_swapIfInBounds]; omega) hp0, htop]
      rw [keyAt_swap hlt hpl, keyAt_swap hlt hpl, if_neg (by omega), if_neg (by omega),
        if_neg (by omega), if_pos rfl]
      exact h
    · rfl

/-! ## Sinking -/

theorem smallerChild_spec {i : Nat} (h : 2 * i + 1 < a.size) :
    (smallerChild key a i = 2 * i + 1 ∨ smallerChild key a i = 2 * i + 2) ∧
      smallerChild key a i < a.size ∧
      ∀ j, 0 < j → j < a.size → parent j = i →
        keyAt key a (smallerChild key a i) ≤ keyAt key a j := by
  unfold smallerChild
  split_ifs with hc
  · refine ⟨.inr rfl, hc.1, ?_⟩
    intro j hj hjl hp
    obtain rfl | rfl : j = 2 * i + 1 ∨ j = 2 * i + 2 := by unfold parent at hp; omega
    · exact hc.2
    · exact Int.le_refl _
  · refine ⟨.inl rfl, h, ?_⟩
    intro j hj hjl hp
    obtain rfl | rfl : j = 2 * i + 1 ∨ j = 2 * i + 2 := by unfold parent at hp; omega
    · exact Int.le_refl _
    · omega

theorem DownOrder.move {hole : Nat} (h : DownOrder key a hole) (hc : 2 * hole + 1 < a.size) :
    DownOrder key (a.swapIfInBounds hole (smallerChild key a hole)) (smallerChild key a hole) := by
  obtain ⟨hor, hcl, hmin⟩ := @smallerChild_spec _ key _ _ hc
  generalize hcd : smallerChild key a hole = c at hor hcl hmin ⊢
  have hhl : hole < a.size := by omega
  have hpc : parent c = hole := by unfold parent; omega
  have hlt : hole < c := by omega
  constructor
  · intro i hi hil hic hpi
    rw [Array.size_swapIfInBounds] at hil
    have hpil := parent_lt hi
    rw [keyAt_swap hhl hcl, keyAt_swap hhl hcl, if_neg hpi, if_neg hic]
    by_cases hph : parent i = hole
    · rw [if_pos hph, if_neg (by omega)]
      exact hmin i hi hil hph
    · rw [if_neg hph]
      by_cases hih : i = hole
      · subst hih
        rw [if_pos rfl]
        exact h.grand hi c (by omega) hcl hpc
      · rw [if_neg hih]
        exact h.except i hi hil hih hph
  · intro _ i hi hil hpi
    rw [Array.size_swapIfInBounds] at hil
    have hpil := parent_lt hi
    rw [keyAt_swap hhl hcl, keyAt_swap hhl hcl, hpc, if_pos rfl, if_neg (by omega),
      if_neg (by omega)]
    have h1 := h.except i hi hil (by omega) (by omega)
    rwa [hpi] at h1

theorem sink_spec {fuel hole : Nat} (hfuel : a.size ≤ fuel + hole) (hlt : hole < a.size)
    (h : DownOrder key a hole) :
    (sink key fuel a hole).2 < a.size ∧ (sink key fuel a hole).1.size = a.size ∧
      UpOrder key (sink key fuel a hole).1 (sink key fuel a hole).2 := by
  induction fuel generalizing a hole with
  | zero => omega
  | succ fuel ih =>
    unfold sink
    split_ifs with hc
    · obtain ⟨hor, hcl, -⟩ := @smallerChild_spec _ key _ _ hc
      have hsize : (a.swapIfInBounds hole (smallerChild key a hole)).size = a.size :=
        Array.size_swapIfInBounds
      have hi := ih (a := a.swapIfInBounds hole (smallerChild key a hole)) (by omega) (by omega)
        (h.move hc)
      rw [hsize] at hi
      exact hi
    · refine ⟨hlt, rfl, ?_, h.grand⟩
      intro i hi hil hih
      refine h.except i hi hil hih ?_
      intro hp
      unfold parent at hp
      simp only at hil
      omega

theorem sink_perm (fuel : Nat) (a : Array α) (hole : Nat) :
    (sink key fuel a hole).1.toList.Perm a.toList := by
  induction fuel generalizing a hole with
  | zero => exact List.Perm.refl _
  | succ fuel ih =>
    unfold sink
    split_ifs
    · exact (ih _ _).trans swap_perm
    · exact List.Perm.refl _

/-! ## Pushing and popping -/

theorem keyAt_push_lt {x : α} {i : Nat} (h : i < a.size) :
    keyAt key (a.push x) i = keyAt key a i := by
  unfold keyAt
  rw [Array.getElem?_push_lt h, Array.getElem?_eq_getElem h]

theorem push_ordered (h : Ordered key a) (x : α) : Ordered key (push key a x) := by
  refine siftUp_ordered (Nat.le_refl _) (by simp) ⟨?_, ?_⟩
  · intro i hi hil hne
    rw [Array.size_push] at hil
    have hia : i < a.size := by omega
    rw [keyAt_push_lt hia, keyAt_push_lt (parent_le_size hia)]
    exact h i hi hia
  · intro _ i hi hil hp
    rw [Array.size_push] at hil
    have := parent_lt hi
    omega

theorem push_perm (a : Array α) (x : α) : (push key a x).toList.Perm (x :: a.toList) := by
  refine (siftUp_perm _ _ _).trans ?_
  rw [Array.toList_push]
  exact List.perm_append_singleton x a.toList

/-- The top of an ordered heap has the least key. -/
theorem ordered_top_le (h : Ordered key a) {i : Nat} (hi : i < a.size) :
    keyAt key a 0 ≤ keyAt key a i := by
  induction i using Nat.strong_induction_on with
  | _ i ih =>
    rcases Nat.eq_zero_or_pos i with rfl | hpos
    · exact Int.le_refl _
    · have hp := parent_lt hpos
      exact Int.le_trans (ih (parent i) hp (by omega)) (h i hpos hi)

theorem push_top {x y : α} (hy : a[0]? = some y) (hle : key y ≤ key x) :
    (push key a x)[0]? = some y := by
  have hpos : 0 < a.size := (Array.getElem?_eq_some_iff.mp hy).1
  have hx : keyAt key (a.push x) a.size = key x := by
    unfold keyAt
    rw [Array.getElem?_push_size]
    rfl
  have h0 : keyAt key (a.push x) 0 = key y := by
    rw [keyAt_push_lt hpos]
    unfold keyAt
    rw [hy]
    rfl
  unfold push
  rw [siftUp_top (by simp) hpos (by rw [hx, h0]; exact hle), Array.getElem?_push_lt hpos,
    ← Array.getElem?_eq_getElem hpos, hy]

theorem getElem?_popped {i : Nat} (hi : i < a.size - 1) :
    ((a.swapIfInBounds 0 (a.size - 1)).pop)[i]? =
      if i = 0 then a[a.size - 1]? else a[i]? := by
  rw [Array.swapIfInBounds_def, dif_pos (by omega), dif_pos (by omega), Array.getElem?_pop]
  rw [if_pos (by simp; omega), Array.getElem?_swap]
  grind

theorem size_popped : ((a.swapIfInBounds 0 (a.size - 1)).pop).size = a.size - 1 := by
  rw [Array.size_pop, Array.size_swapIfInBounds]

theorem pop_ordered (h : Ordered key a) : Ordered key (pop key a) := by
  unfold pop
  generalize hb : (a.swapIfInBounds 0 (a.size - 1)).pop = b
  have hsize : b.size = a.size - 1 := by rw [← hb]; exact size_popped
  have hkey : ∀ i, 0 < i → i < b.size → keyAt key b i = keyAt key a i := by
    intro i hi hil
    unfold keyAt
    rw [← hb, getElem?_popped (by omega), if_neg (by omega)]
  rcases Nat.eq_zero_or_pos b.size with h0 | hpos
  · intro i hi hil
    have hs : (siftUp key (sink key b.size b 0).2 (sink key b.size b 0).1
        (sink key b.size b 0).2).size = b.size := by
      have h1 := (@siftUp_perm _ key (sink key b.size b 0).2 (sink key b.size b 0).1
        (sink key b.size b 0).2).length_eq
      have h2 := (@sink_perm _ key b.size b 0).length_eq
      simp only [Array.length_toList] at h1 h2
      omega
    rw [hs] at hil
    omega
  · have hdown : DownOrder key b 0 := by
      refine ⟨?_, fun h0 => absurd h0 (Nat.lt_irrefl 0)⟩
      intro i hi hil _ hp
      have hpi := parent_lt hi
      rw [hkey i hi hil, hkey (parent i) (by omega) (by omega)]
      exact h i hi (by omega)
    obtain ⟨h1, h2, h3⟩ := @sink_spec _ key b b.size 0 (by omega) hpos hdown
    exact siftUp_ordered (Nat.le_refl _) (by omega) h3

/-- Popping removes the top. -/
theorem pop_perm {x : α} (hx : a[0]? = some x) : (x :: (pop key a).toList).Perm a.toList := by
  obtain ⟨hpos, hget⟩ := Array.getElem?_eq_some_iff.mp hx
  have hlast : a.size - 1 < a.size := by omega
  have hsize : (a.swapIfInBounds 0 (a.size - 1)).size = a.size := Array.size_swapIfInBounds
  have hbound : a.size - 1 < (a.swapIfInBounds 0 (a.size - 1)).size := by omega
  have htop : (a.swapIfInBounds 0 (a.size - 1))[a.size - 1] = x := by
    rw [← hget, Array.getElem_swapIfInBounds]
    grind
  have hpush : (a.swapIfInBounds 0 (a.size - 1)).pop.push x = a.swapIfInBounds 0 (a.size - 1) := by
    refine Array.ext (by rw [Array.size_push, Array.size_pop]; omega) ?_
    intro i hi hi'
    rw [Array.getElem_push]
    split_ifs with hlt
    · exact Array.getElem_pop hlt
    · rw [Array.size_pop] at hlt
      obtain rfl : i = a.size - 1 := by omega
      exact htop.symm
  have hperm : (x :: (a.swapIfInBounds 0 (a.size - 1)).pop.toList).Perm a.toList := by
    refine (List.perm_append_singleton x _).symm.trans ?_
    rw [← Array.toList_push, hpush]
    exact swap_perm
  refine (List.Perm.cons x ?_).trans hperm
  exact (siftUp_perm _ _ _).trans (sink_perm _ _ _)

end Heap

/-- A heap in heap order. -/
structure MinHeap (α : Type*) (key : α → Int) where
  items : Array α
  ordered : Heap.Ordered key items

namespace MinHeap

variable {α : Type*} {key : α → Int}

/-- The empty heap. -/
def empty : MinHeap α key := ⟨#[], fun _ _ h => absurd h (Nat.not_lt_zero _)⟩

/-- `top`, if there is one. -/
def top (h : MinHeap α key) : Option α := h.items[0]?

/-- `push`. -/
def push (h : MinHeap α key) (x : α) : MinHeap α key :=
  ⟨Heap.push key h.items x, Heap.push_ordered h.ordered x⟩

/-- `pop`. -/
def pop (h : MinHeap α key) : MinHeap α key := ⟨Heap.pop key h.items, Heap.pop_ordered h.ordered⟩

/-- The items, in the order in which they lie in the array. -/
def toList (h : MinHeap α key) : List α := h.items.toList

theorem push_perm (h : MinHeap α key) (x : α) : (h.push x).toList.Perm (x :: h.toList) :=
  Heap.push_perm h.items x

theorem pop_perm {h : MinHeap α key} {x : α} (hx : h.top = some x) :
    (x :: h.pop.toList).Perm h.toList := Heap.pop_perm hx

theorem top_mem {h : MinHeap α key} {x : α} (hx : h.top = some x) : x ∈ h.toList :=
  (pop_perm hx).subset List.mem_cons_self

theorem toList_eq_nil {h : MinHeap α key} (ht : h.top = none) : h.toList = [] := by
  have hsize : h.items.size ≤ 0 := Array.getElem?_eq_none_iff.mp ht
  unfold toList
  rw [List.eq_nil_iff_length_eq_zero, Array.length_toList]
  omega

/-- The top has the least key. -/
theorem top_le {h : MinHeap α key} {x y : α} (hx : h.top = some x) (hy : y ∈ h.toList) :
    key x ≤ key y := by
  obtain ⟨i, hi, rfl⟩ := List.mem_iff_getElem.mp hy
  have hi' : i < h.items.size := by simpa [toList] using hi
  have hle := Heap.ordered_top_le h.ordered hi'
  unfold Heap.keyAt at hle
  rw [show h.items[0]? = some x from hx, Array.getElem?_eq_getElem hi'] at hle
  simpa [toList] using hle

/-- An item that is not smaller than the top goes under it. -/
theorem push_top {h : MinHeap α key} {x y : α} (hy : h.top = some y) (hle : key y ≤ key x) :
    (h.push x).top = some y := Heap.push_top hy hle

end MinHeap
