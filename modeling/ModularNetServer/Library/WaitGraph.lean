import Mathlib.Logic.Relation

/-!
# Wait-for graphs

Threads that hold mutexes and ask for one at a time. A thread waits for each thread that holds what it
asks for; a deadlock is a cycle of waiting threads, which may be a single thread that asks for a mutex
it holds itself.
-/

namespace WaitGraph

variable {ι μ : Type*} {asks : ι → Option μ} {holds : ι → List μ}

/-- A thread asks for a mutex that another thread, or itself, holds. -/
def Waits (asks : ι → Option μ) (holds : ι → List μ) (i j : ι) : Prop :=
  ∃ m, asks i = some m ∧ m ∈ holds j

/-- Some threads wait in a cycle. -/
def Deadlock (asks : ι → Option μ) (holds : ι → List μ) : Prop :=
  ∃ i, Relation.TransGen (Waits asks holds) i i

theorem deadlock_of_self {i : ι} {m : μ} (ha : asks i = some m) (hh : m ∈ holds i) :
    Deadlock asks holds := ⟨i, .single ⟨m, ha, hh⟩⟩

/-- Two threads that ask for what the other one holds. -/
theorem deadlock_of_crossed {i j : ι} {m n : μ} (hai : asks i = some m) (hhj : m ∈ holds j)
    (haj : asks j = some n) (hhi : n ∈ holds i) : Deadlock asks holds :=
  ⟨i, .head ⟨m, hai, hhj⟩ (.single ⟨n, haj, hhi⟩)⟩

/-- Along a chain of waiting threads the mutexes asked for rise. -/
theorem rank_lt_of_transGen {rank : μ → Nat}
    (hrank : ∀ i m, asks i = some m → ∀ n ∈ holds i, rank n < rank m) {i j : ι} {m n : μ}
    (h : Relation.TransGen (Waits asks holds) i j) (hi : asks i = some m) (hj : asks j = some n) :
    rank m < rank n := by
  induction h generalizing n with
  | single hw =>
    obtain ⟨m', hm', hheld⟩ := hw
    rw [hi] at hm'
    cases hm'
    exact hrank _ n hj m hheld
  | tail _ hw ih =>
    obtain ⟨m', hm', hheld⟩ := hw
    exact Nat.lt_trans (ih hm') (hrank _ n hj m' hheld)

/-- Threads that ask only for mutexes above those that they hold never wait in a cycle. -/
theorem not_deadlock_of_rank (rank : μ → Nat)
    (hrank : ∀ i m, asks i = some m → ∀ n ∈ holds i, rank n < rank m) : ¬ Deadlock asks holds := by
  rintro ⟨i, hcycle⟩
  obtain ⟨j, ⟨m, hi, -⟩, -⟩ := Relation.TransGen.head'_iff.mp hcycle
  exact Nat.lt_irrefl _ (rank_lt_of_transGen hrank hcycle hi hi)

end WaitGraph
