import Mathlib.Data.List.TakeWhile
import Mathlib.Data.List.Infix

/-!
# Searching in terminated strings

First occurrences of a pattern in a list (`find`) and the part of a list before a terminator
(`upTo`), which is what a search in a C string sees of the memory it starts in. The lemmas say how
a search result survives when the list is extended on the right.
-/

namespace Scan

variable {α : Type*} [DecidableEq α]

/-- The position of the first occurrence of `pat` in a list. -/
def find (pat : List α) : List α → Option Nat
  | [] => if pat = [] then some 0 else none
  | x :: xs => if pat.isPrefixOf (x :: xs) then some 0 else (find pat xs).map (· + 1)

/-- The part of a list before the first terminator `z`, all of it if there is none. -/
def upTo (z : α) (l : List α) : List α := l.takeWhile (· ≠ z)

/-! ## Occurrences -/

theorem find_cons (pat : List α) (x : α) (xs : List α) :
    find pat (x :: xs) = if pat <+: x :: xs then some 0 else (find pat xs).map (· + 1) := by
  simp [find]

/-- A found position splits the list at the pattern. -/
theorem find_some_drop {pat l : List α} {n : Nat} (h : find pat l = some n) :
    pat <+: l.drop n ∧ n + pat.length ≤ l.length := by
  induction l generalizing n with
  | nil =>
    simp only [find] at h
    split_ifs at h with hp
    cases h
    simp [hp]
  | cons x xs ih =>
    rw [find_cons] at h
    split_ifs at h with hp
    · cases h
      exact ⟨by simpa using hp, by simpa using hp.length_le⟩
    · obtain ⟨m, hm, rfl⟩ := Option.map_eq_some_iff.mp h
      obtain ⟨h1, h2⟩ := ih hm
      exact ⟨by simpa using h1, by simp only [List.length_cons]; omega⟩

theorem find_some_le {pat l : List α} {n : Nat} (h : find pat l = some n) :
    n + pat.length ≤ l.length := (find_some_drop h).2

/-- A pattern that occurs somewhere is found. -/
theorem find_isSome {pat l : List α} {n : Nat} (h : pat <+: l.drop n) : (find pat l).isSome = true := by
  induction l generalizing n with
  | nil =>
    rw [List.drop_nil, List.prefix_nil] at h
    simp [find, h]
  | cons x xs ih =>
    rw [find_cons]
    split_ifs with hp
    · rfl
    · cases n with
      | zero => exact absurd h hp
      | succ n =>
        rw [Option.isSome_map]
        exact ih h

/-- The first occurrence does not move when the list grows on the right. -/
theorem find_append {pat l : List α} {n : Nat} (h : find pat l = some n) (r : List α) :
    find pat (l ++ r) = some n := by
  induction l generalizing n with
  | nil =>
    simp only [find] at h
    split_ifs at h with hp
    subst hp
    cases r <;> simpa [find] using h
  | cons x xs ih =>
    rw [find_cons] at h
    rw [List.cons_append, find_cons]
    split_ifs at h with hp
    · have hpr : pat <+: x :: (xs ++ r) := hp.trans (List.prefix_append (x :: xs) r)
      rw [if_pos hpr]
      exact h
    · obtain ⟨m, hm, rfl⟩ := Option.map_eq_some_iff.mp h
      have hlen := find_some_le hm
      have hnp : ¬ pat <+: x :: (xs ++ r) := by
        intro hc
        refine hp (List.prefix_of_prefix_length_le hc ?_ (by simp only [List.length_cons]; omega))
        exact List.prefix_append (x :: xs) r
      rw [if_neg hnp, ih hm]
      rfl

/-- An occurrence that ends within a prefix is found in the prefix. -/
theorem find_of_prefix {pat l l' : List α} {n : Nat} (h : find pat l' = some n) (hl : l <+: l')
    (hn : n + pat.length ≤ l.length) : find pat l = some n := by
  induction l generalizing l' n with
  | nil =>
    obtain ⟨h0, hpat⟩ : n = 0 ∧ pat = [] := by simpa using hn
    simp [find, hpat, h0]
  | cons x xs ih =>
    obtain ⟨r, rfl⟩ := hl
    rw [List.cons_append, find_cons] at h
    rw [find_cons]
    split_ifs at h with hp
    · cases h
      have hxs : pat <+: x :: xs :=
        List.prefix_of_prefix_length_le hp (List.prefix_append (x :: xs) r) (by omega)
      rw [if_pos hxs]
    · obtain ⟨m, hm, rfl⟩ := Option.map_eq_some_iff.mp h
      have hxs : ¬ pat <+: x :: xs := fun hc => hp (hc.trans (List.prefix_append (x :: xs) r))
      rw [if_neg hxs, ih hm (List.prefix_append xs r) (by simp at hn; omega)]
      rfl

theorem find_prefix {pat l l' : List α} {n : Nat} (h : find pat l = some n) (hl : l <+: l') :
    find pat l' = some n := by
  obtain ⟨r, rfl⟩ := hl
  exact find_append h r

/-- A pattern whose first item does not occur in `l` is found right after `l`. -/
theorem find_append_of_forall_ne {c : α} {pat : List α} (l r : List α) (hl : ∀ x ∈ l, x ≠ c) :
    find (c :: pat) (l ++ (c :: pat) ++ r) = some l.length := by
  induction l with
  | nil => simp [find]
  | cons x xs ih =>
    have hx : x ≠ c := hl x (by simp)
    have hnp : ¬ (c :: pat) <+: x :: (xs ++ (c :: pat) ++ r) := by
      intro hc
      exact hx (List.cons_prefix_cons.mp hc).1.symm
    rw [List.cons_append, List.cons_append, find_cons, if_neg hnp,
      ih (fun y hy => hl y (List.mem_cons_of_mem _ hy))]
    rfl

/-- Where a single item is found. -/
theorem find_singleton_iff {c : α} {l : List α} {n : Nat} :
    find [c] l = some n ↔ ∃ l₁ l₂, l = l₁ ++ c :: l₂ ∧ c ∉ l₁ ∧ n = l₁.length := by
  constructor
  · intro h
    induction l generalizing n with
    | nil => cases h
    | cons x xs ih =>
      rw [find_cons] at h
      split_ifs at h with hp
      · cases h
        obtain rfl : c = x := (List.cons_prefix_cons.mp hp).1
        exact ⟨[], xs, rfl, by simp, rfl⟩
      · obtain ⟨m, hm, rfl⟩ := Option.map_eq_some_iff.mp h
        obtain ⟨l₁, l₂, rfl, hc, rfl⟩ := ih hm
        have hx : c ≠ x := fun heq => hp (by simp [heq])
        exact ⟨x :: l₁, l₂, rfl, by simp [hx, hc], rfl⟩
  · rintro ⟨l₁, l₂, rfl, hc, rfl⟩
    have hfind := @find_append_of_forall_ne _ _ c [] l₁ l₂ fun x hx heq => hc (heq ▸ hx)
    rwa [List.append_assoc] at hfind

/-- A list is split in one way only at the first place of an item. -/
theorem append_cons_inj {c : α} {l₁ l₂ r₁ r₂ : List α} (h₁ : c ∉ l₁) (h₂ : c ∉ l₂)
    (h : l₁ ++ c :: r₁ = l₂ ++ c :: r₂) : l₁ = l₂ ∧ r₁ = r₂ := by
  have hfind : find [c] (l₁ ++ c :: r₁) = some l₁.length :=
    find_singleton_iff.mpr ⟨l₁, r₁, rfl, h₁, rfl⟩
  have hfind' : find [c] (l₁ ++ c :: r₁) = some l₂.length :=
    find_singleton_iff.mpr ⟨l₂, r₂, h, h₂, rfl⟩
  have hlen : l₁.length = l₂.length := Option.some.inj (hfind.symm.trans hfind')
  obtain ⟨hleft, hright⟩ := List.append_inj h hlen
  exact ⟨hleft, (List.cons.inj hright).2⟩

/-- A pattern whose first item does not occur is not found. -/
theorem find_eq_none_of_forall_ne {c : α} {pat l : List α} (hl : ∀ x ∈ l, x ≠ c) :
    find (c :: pat) l = none := by
  induction l with
  | nil => simp [find]
  | cons x xs ih =>
    have hnp : ¬ (c :: pat) <+: x :: xs := by
      intro hc
      exact hl x (by simp) (List.cons_prefix_cons.mp hc).1.symm
    rw [find_cons, if_neg hnp, ih (fun y hy => hl y (List.mem_cons_of_mem _ hy))]
    rfl

/-- A pattern of two different items that does not occur in `l` is found right after `l`. -/
theorem find_pair_append {a b : α} (hab : a ≠ b) {l : List α} (hl : find [a, b] l = none)
    (r : List α) : find [a, b] (l ++ [a, b] ++ r) = some l.length := by
  induction l with
  | nil => simp [find]
  | cons x xs ih =>
    rw [find_cons] at hl
    split_ifs at hl with hp
    have hxs : find [a, b] xs = none := by simpa using hl
    have hnp : ¬ [a, b] <+: x :: (xs ++ [a, b] ++ r) := by
      intro hc
      obtain ⟨hx, ht⟩ := List.cons_prefix_cons.mp hc
      cases xs with
      | nil => exact hab (List.cons_prefix_cons.mp ht).1.symm
      | cons y ys =>
        refine hp (List.cons_prefix_cons.mpr ⟨hx, ?_⟩)
        exact List.cons_prefix_cons.mpr ⟨(List.cons_prefix_cons.mp ht).1, List.nil_prefix⟩
    rw [List.cons_append, List.cons_append, find_cons, if_neg hnp, ih hxs]
    rfl

/-! ## Terminated strings -/

theorem upTo_isPrefix (z : α) (l : List α) : upTo z l <+: l := List.takeWhile_prefix _

theorem upTo_length_le (z : α) (l : List α) : (upTo z l).length ≤ l.length :=
  (upTo_isPrefix z l).length_le

@[simp] theorem upTo_nil (z : α) : upTo z [] = [] := rfl

@[simp] theorem upTo_cons_self (z : α) (l : List α) : upTo z (z :: l) = [] := by
  simp [upTo]

theorem upTo_cons_of_ne {z x : α} (h : x ≠ z) (l : List α) : upTo z (x :: l) = x :: upTo z l := by
  simp [upTo, h]

theorem upTo_append_of_forall_ne {z : α} {l : List α} (h : ∀ x ∈ l, x ≠ z) (r : List α) :
    upTo z (l ++ r) = l ++ upTo z r := by
  unfold upTo
  rw [List.takeWhile_append_of_pos]
  intro a ha
  simpa using h a ha

/-- A terminator after `l` cuts off everything that follows it. -/
theorem upTo_append_terminator (z : α) (l r : List α) : upTo z (l ++ z :: r) = upTo z l := by
  induction l with
  | nil => simp
  | cons x xs ih =>
    by_cases hx : x = z
    · subst hx; simp
    · rw [List.cons_append, upTo_cons_of_ne hx, upTo_cons_of_ne hx, ih]

/-- Extending a list extends what a search in it sees. -/
theorem upTo_append_prefix (z : α) (l r : List α) : upTo z l <+: upTo z (l ++ r) := by
  unfold upTo
  rw [List.takeWhile_append]
  split_ifs with h
  · have hl : List.takeWhile (· ≠ z) l = l := (List.takeWhile_prefix _).eq_of_length h
    rw [hl]
    exact List.prefix_append _ _
  · exact List.prefix_rfl

/-- A terminator in `l` hides what follows `l`. -/
theorem upTo_append_cases (z : α) (l r : List α) : upTo z (l ++ r) = upTo z l ∨ upTo z l = l := by
  induction l with
  | nil => exact .inr rfl
  | cons x xs ih =>
    by_cases hx : x = z
    · subst hx
      exact .inl (by simp)
    · rw [List.cons_append, upTo_cons_of_ne hx, upTo_cons_of_ne hx]
      exact ih.imp (congrArg (x :: ·)) (congrArg (x :: ·))

/-- What a search sees of the memory from `n` on, if it saw more than `n` items. -/
theorem upTo_drop {z : α} {l : List α} {n : Nat} (h : n ≤ (upTo z l).length) :
    upTo z (l.drop n) = (upTo z l).drop n := by
  induction l generalizing n with
  | nil => simp
  | cons x xs ih =>
    cases n with
    | zero => simp
    | succ n =>
      by_cases hx : x = z
      · subst hx; simp at h
      · rw [upTo_cons_of_ne hx] at h ⊢
        simpa using ih (by simpa using h)

theorem take_upTo {z : α} {l : List α} {n : Nat} (h : n ≤ (upTo z l).length) :
    (upTo z l).take n = l.take n := by
  obtain ⟨r, hr⟩ := upTo_isPrefix z l
  conv_rhs => rw [← hr]
  rw [List.take_append_of_le_length h]

end Scan
