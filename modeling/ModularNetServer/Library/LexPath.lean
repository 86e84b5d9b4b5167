import Mathlib.Data.List.Basic
import Mathlib.Data.List.Infix

/-!
# Lexical path resolution

Resolving `.`, `..` and repeated separators by the text alone. A path is a walk over directories, a
directory the list of names that lead to it, and every relative path has a normal form: some levels
up, then some names down.
-/

namespace LexPath

/-- A step of a path: up to the parent directory, or down to a name. -/
inductive Component (ν : Type)
  | up
  | name (n : ν)
  deriving DecidableEq

variable {ν : Type}

/-- The directory that a path leads to. The root is its own parent. -/
def walk (dirs : List ν) : List (Component ν) → List ν
  | [] => dirs
  | .up :: cs => walk dirs.dropLast cs
  | .name n :: cs => walk (dirs ++ [n]) cs

theorem walk_append (dirs : List ν) (cs cs' : List (Component ν)) :
    walk dirs (cs ++ cs') = walk (walk dirs cs) cs' := by
  induction cs generalizing dirs with
  | nil => rfl
  | cons c cs ih =>
    cases c with
    | up => exact ih _
    | name n => exact ih _

/-- A relative path in normal form. -/
structure Relative (ν : Type) where
  levels : Nat
  names : List ν
  deriving DecidableEq

namespace Relative

/-- The normal form of a path that goes on with one more component. -/
def push (r : Relative ν) : Component ν → Relative ν
  | .up =>
    match r.names with
    | [] => ⟨r.levels + 1, []⟩
    | n :: names => ⟨r.levels, (n :: names).dropLast⟩
  | .name n => ⟨r.levels, r.names ++ [n]⟩

/-- The normal form of a path. -/
def ofComponents (cs : List (Component ν)) : Relative ν := cs.foldl push ⟨0, []⟩

/-- The directory that a path in normal form leads to. -/
def applyTo (r : Relative ν) (dirs : List ν) : List ν :=
  dirs.take (dirs.length - r.levels) ++ r.names

theorem applyTo_push (r : Relative ν) (c : Component ν) (dirs : List ν) :
    (r.push c).applyTo dirs = walk (r.applyTo dirs) [c] := by
  cases c with
  | name n => simp [push, applyTo, walk]
  | up =>
    cases hnames : r.names with
    | nil =>
      simp only [push, hnames, applyTo, walk, List.append_nil, List.dropLast_eq_take,
        List.length_take, List.take_take]
      congr 1
      omega
    | cons n names =>
      simp only [push, hnames, applyTo, walk]
      rw [List.dropLast_append_of_ne_nil (List.cons_ne_nil n names)]

end Relative

/-- Walking along a path is walking along its normal form. -/
theorem walk_eq (dirs : List ν) (cs : List (Component ν)) :
    walk dirs cs = (Relative.ofComponents cs).applyTo dirs := by
  induction cs using List.reverseRecOn with
  | nil => simp [walk, Relative.ofComponents, Relative.applyTo]
  | append_singleton cs c ih =>
    rw [walk_append, ih, ← Relative.applyTo_push]
    simp [Relative.ofComponents]

/-- A path leads into a directory below the one it starts from if it names again what it has climbed
    over. -/
theorem prefix_applyTo_iff (r : Relative ν) (dirs below : List ν) :
    dirs ++ below <+: r.applyTo dirs ↔ dirs.drop (dirs.length - r.levels) ++ below <+: r.names := by
  have h : dirs ++ below = dirs.take (dirs.length - r.levels) ++
      (dirs.drop (dirs.length - r.levels) ++ below) := by
    rw [← List.append_assoc, List.take_append_drop]
  rw [h]
  exact List.prefix_append_right_inj _

section Text

variable {α : Type} [DecidableEq α] (sep dot : α)

/-- The component that a piece of a path between two separators stands for. -/
def component (piece : List α) : Option (Component (List α)) :=
  if piece = [] ∨ piece = [dot] then none
  else if piece = [dot, dot] then some .up
  else some (.name piece)

/-- The components of a path. -/
def components (path : List α) : List (Component (List α)) :=
  (path.splitOn sep).filterMap (component dot)

theorem components_append_sep (path path' : List α) :
    components sep dot (path ++ sep :: path') =
      components sep dot path ++ components sep dot path' := by
  unfold components
  rw [List.splitOn_append_cons_self, List.filterMap_append]

/-- The directory that a path leads to: from the root if it starts with a separator, else from the
    working directory. -/
def resolve (cwd : List (List α)) (path : List α) : List (List α) :=
  walk (if path.head? = some sep then [] else cwd) (components sep dot path)

/-- A path is resolved piece by piece. -/
theorem resolve_append_sep (cwd : List (List α)) {path : List α} (h : path ≠ []) (path' : List α) :
    resolve sep dot cwd (path ++ sep :: path') =
      walk (resolve sep dot cwd path) (components sep dot path') := by
  unfold resolve
  rw [List.head?_append_of_ne_nil path h, components_append_sep, walk_append]

end Text

end LexPath
