import ModularNetServer.Library.Slots

/-!
# Monitors

Threads that wait on a condition variable for something of which there are so many available. A thread in
the list is away, blocked, or woken and about to look again. A notification wakes up one blocked thread, if
there is one, and whoever makes something available owes one. Then nothing that is available is forgotten:
while threads are blocked, there are as many woken threads and notifications to come as there is to take.
-/

namespace Monitor

/-- What a thread is to a condition variable. -/
inductive Phase
  | away
  | blocked
  | woken
  deriving DecidableEq

variable {τ : Type*} {phase : τ → Phase} {available owed i : Nat} {l : List τ} {t t' : τ}

/-- The threads that wait. -/
def blocked (phase : τ → Phase) (l : List τ) : Nat := l.countP (fun t => phase t = .blocked)

/-- The threads that have been woken up. -/
def woken (phase : τ → Phase) (l : List τ) : Nat := l.countP (fun t => phase t = .woken)

/-- While threads wait, everything that is available has a thread or a notification on its way. -/
def Awake (phase : τ → Phase) (available owed : Nat) (l : List τ) : Prop :=
  0 < blocked phase l → available ≤ woken phase l + owed

theorem blocked_pos (ht : t ∈ l) (hphase : phase t = .blocked) : 0 < blocked phase l := by
  apply List.countP_pos_iff.mpr
  exact ⟨t, ht, by simp [hphase]⟩

theorem blocked_eq_zero_iff : blocked phase l = 0 ↔ ∀ t ∈ l, phase t ≠ .blocked := by
  simp [blocked, List.countP_eq_zero]

variable (phase) in
theorem blocked_set (hi : l[i]? = some t) (t' : τ) :
    blocked phase (l.set i t') + (if phase t = .blocked then 1 else 0) =
      blocked phase l + (if phase t' = .blocked then 1 else 0) := by
  have hcount := Slots.countP_set (fun t => decide (phase t = .blocked)) hi t'
  simpa only [blocked, decide_eq_true_eq] using hcount

variable (phase) in
theorem woken_set (hi : l[i]? = some t) (t' : τ) :
    woken phase (l.set i t') + (if phase t = .woken then 1 else 0) =
      woken phase l + (if phase t' = .woken then 1 else 0) := by
  have hcount := Slots.countP_set (fun t => decide (phase t = .woken)) hi t'
  simpa only [woken, decide_eq_true_eq] using hcount

namespace Awake

/-- Where nothing is available nothing can be forgotten, so a thread may block. -/
theorem zero (phase : τ → Phase) (owed : Nat) (l : List τ) : Awake phase 0 owed l :=
  fun _ => Nat.zero_le _

theorem of_none (h : ∀ t ∈ l, phase t ≠ .blocked) : Awake phase available owed l := by
  intro hpos
  rw [blocked_eq_zero_iff.mpr h] at hpos
  cases hpos

/-- Something becomes available, and a notification is to follow. -/
theorem release (h : Awake phase available owed l) : Awake phase (available + 1) (owed + 1) l := by
  intro hpos
  have hle := h hpos
  omega

/-- A thread is woken up by a notification. -/
theorem notify (h : Awake phase available (owed + 1) l) (hi : l[i]? = some t)
    (hphase : phase t = .blocked) (hphase' : phase t' = .woken) :
    Awake phase available owed (l.set i t') := by
  intro _
  have hle := h (blocked_pos (List.mem_of_getElem? hi) hphase)
  have hwoken := woken_set phase hi t'
  rw [hphase, hphase'] at hwoken
  simp only [reduceCtorEq, if_false, if_true, Nat.add_zero] at hwoken
  omega

/-- A thread wakes up without a notification. -/
theorem wake (h : Awake phase available owed l) (hi : l[i]? = some t) (hphase : phase t = .blocked)
    (hphase' : phase t' = .woken) : Awake phase available owed (l.set i t') := by
  have hmore : Awake phase available (owed + 1) l := by
    intro hpos
    have hle := h hpos
    omega
  exact hmore.notify hi hphase hphase'

/-- A thread that was not blocked takes what it finds. -/
theorem take (h : Awake phase (available + 1) owed l) (hi : l[i]? = some t) (hphase : phase t ≠ .blocked)
    (hphase' : phase t' = .away) : Awake phase available owed (l.set i t') := by
  intro hpos
  have hblocked := blocked_set phase hi t'
  have hwoken := woken_set phase hi t'
  rw [if_neg hphase, hphase'] at hblocked
  rw [hphase'] at hwoken
  simp only [reduceCtorEq, if_false, Nat.add_zero] at hblocked hwoken
  have hle := h (by omega)
  split_ifs at hwoken <;> omega

/-- A thread that has nothing to do with the condition variable goes on. -/
theorem go (h : Awake phase available owed l) (hi : l[i]? = some t) (hphase : phase t = .away)
    (hphase' : phase t' = .away) : Awake phase available owed (l.set i t') := by
  intro hpos
  have hblocked := blocked_set phase hi t'
  have hwoken := woken_set phase hi t'
  rw [hphase, hphase'] at hblocked hwoken
  simp only [reduceCtorEq, if_false, Nat.add_zero] at hblocked hwoken
  have hle := h (by omega)
  omega

/-- A thread comes that has nothing to do with the condition variable. -/
theorem append (h : Awake phase available owed l) (hphase : phase t = .away) :
    Awake phase available owed (l ++ [t]) := by
  intro hpos
  have hblocked : blocked phase (l ++ [t]) = blocked phase l := by simp [blocked, hphase]
  have hwoken : woken phase (l ++ [t]) = woken phase l := by simp [woken, hphase]
  rw [hblocked] at hpos
  rw [hwoken]
  exact h hpos

end Awake

end Monitor
