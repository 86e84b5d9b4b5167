import ModularNetServer.Timer.TimerTable
import Mathlib.Data.List.Nodup

/-!
# The timer manager keeps a timer table

A refreshed timer leaves its old node in the heap, where `tick` skips it because the map holds
another object. The invariant `Inv` says that the map points into the heap and that addresses tell
nodes apart; the passes of `tick` keep `Sweeping`, which relates the manager and the callbacks run
so far to the table at the start of the tick.
-/

namespace ModularNetServer

variable {C : Type*}

namespace TimerManager

/-- The invariant of a manager whose repeating timers have an interval. -/
structure Inv (m : TimerManager C) : Prop where
  nodup : (m.heap.toList.map TimerNode.addr).Nodup
  fresh : ∀ t ∈ m.heap.toList, t.addr < m.nextAddr
  mapped : ∀ id t, m.map id = some t → t ∈ m.heap.toList ∧ t.fd = id
  positive : ∀ t ∈ m.heap.toList, t.isRepeat = true → 0 < t.interval

theorem inv_empty : Inv (empty : TimerManager C) where
  nodup := List.nodup_nil
  fresh := fun _ h => absurd h List.not_mem_nil
  mapped := fun _ _ h => by cases h
  positive := fun _ h => absurd h List.not_mem_nil

/-- Nodes of the heap with one address are one node. -/
theorem Inv.eq_of_addr {m : TimerManager C} (h : m.Inv) {t u : TimerNode C}
    (ht : t ∈ m.heap.toList) (hu : u ∈ m.heap.toList) (heq : t.addr = u.addr) : t = u :=
  List.inj_on_of_nodup_map h.nodup ht hu heq

/-- Where addresses tell nodes apart, a node is current if and only if the map holds it. -/
theorem isCurrent_iff_of_addr {m : TimerManager C} {timer : TimerNode C}
    (h : ∀ t, m.map timer.fd = some t → t.addr = timer.addr → t = timer) :
    m.isCurrent timer = true ↔ m.map timer.fd = some timer := by
  unfold isCurrent
  cases hm : m.map timer.fd with
  | none => simp
  | some t =>
    simp only [decide_eq_true_eq, Option.some.injEq]
    exact ⟨fun ha => h t hm ha, fun he => by rw [he]⟩

theorem Inv.isCurrent_iff {m : TimerManager C} (h : m.Inv) {timer : TimerNode C}
    (ht : timer ∈ m.heap.toList) : m.isCurrent timer = true ↔ m.map timer.fd = some timer :=
  isCurrent_iff_of_addr fun t hm ha => h.eq_of_addr (h.mapped timer.fd t hm).1 ht ha

theorem table_eq_some {m : TimerManager C} {id : Int} {r : Registration C} :
    m.table id = some r ↔ ∃ t, m.map id = some t ∧ t.registration = r := by
  simp [table]

/-! ## One call -/

/-- Registering pushes one node with a new address. -/
theorem Inv.insert {m : TimerManager C} (h : m.Inv) {heap : MinHeap (TimerNode C) TimerNode.expire}
    {timer : TimerNode C} {rest : List (TimerNode C)} (haddr : timer.addr = m.nextAddr)
    (hpos : timer.isRepeat = true → 0 < timer.interval)
    (hsub : ∀ t ∈ rest, t ∈ m.heap.toList) (hnd : (rest.map TimerNode.addr).Nodup)
    (hkeep : ∀ id t, id ≠ timer.fd → m.map id = some t → t ∈ rest)
    (hperm : heap.toList.Perm (timer :: rest)) :
    Inv ⟨heap, m.map.insert timer.fd timer, m.nextAddr + 1⟩ where
  nodup := by
    rw [(hperm.map _).nodup_iff, List.map_cons, List.nodup_cons]
    refine ⟨?_, hnd⟩
    intro hin
    obtain ⟨t, ht, hta⟩ := List.mem_map.mp hin
    have := h.fresh t (hsub t ht)
    omega
  fresh := by
    intro t ht
    rcases List.mem_cons.mp (hperm.subset ht) with rfl | ht
    · simp only [haddr]
      omega
    · have := h.fresh t (hsub t ht)
      simp only
      omega
  mapped := by
    intro id t hm
    simp only [Table.insert_apply] at hm
    split_ifs at hm with hid
    · cases hm
      exact ⟨hperm.symm.subset List.mem_cons_self, hid.symm⟩
    · exact ⟨hperm.symm.subset (List.mem_cons_of_mem _ (hkeep id t hid hm)), (h.mapped id t hm).2⟩
  positive := by
    intro t ht
    rcases List.mem_cons.mp (hperm.subset ht) with rfl | ht
    · exact hpos
    · exact h.positive t (hsub t ht)

theorem Inv.addTimer {m : TimerManager C} (h : m.Inv) (now id : Int) (cb : C) {timeoutMs : Int}
    {isRepeat : Bool} (hpos : isRepeat = true → 0 < timeoutMs) :
    (m.addTimer now id cb timeoutMs isRepeat).Inv :=
  @Inv.insert _ _ h _ (TimerNode.make m.nextAddr now id cb timeoutMs isRepeat)
    m.heap.toList rfl hpos (fun _ ht => ht) h.nodup
    (fun id t _ hm => (h.mapped id t hm).1) (MinHeap.push_perm _ _)

theorem table_addTimer (m : TimerManager C) (now id : Int) (cb : C) (timeoutMs : Int)
    (isRepeat : Bool) :
    (m.addTimer now id cb timeoutMs isRepeat).table =
      m.table.addTimer now id cb timeoutMs isRepeat := by
  funext id'
  simp only [table, addTimer, TimerTable.addTimer, Table.insert_apply]
  split_ifs <;> rfl

/-- The nodes below the top. -/
theorem mem_pop {heap : MinHeap (TimerNode C) TimerNode.expire} (h : (heap.toList.map TimerNode.addr).Nodup)
    {timer : TimerNode C} (htop : heap.top = some timer) :
    (∀ t ∈ heap.pop.toList, t ∈ heap.toList ∧ t.addr ≠ timer.addr) ∧
      ∀ t ∈ heap.toList, t ≠ timer → t ∈ heap.pop.toList := by
  have hperm := MinHeap.pop_perm htop
  have hnd := (hperm.map TimerNode.addr).nodup_iff.mpr h
  rw [List.map_cons, List.nodup_cons] at hnd
  refine ⟨fun t ht => ⟨hperm.subset (List.mem_cons_of_mem _ ht), ?_⟩, ?_⟩
  · intro ha
    exact hnd.1 (ha ▸ List.mem_map_of_mem ht)
  · intro t ht hne
    rcases List.mem_cons.mp (hperm.symm.subset ht) with rfl | ht
    · exact absurd rfl hne
    · exact ht

theorem nodup_pop {heap : MinHeap (TimerNode C) TimerNode.expire} (h : (heap.toList.map TimerNode.addr).Nodup)
    {timer : TimerNode C} (htop : heap.top = some timer) : (heap.pop.toList.map TimerNode.addr).Nodup := by
  have hnd := ((MinHeap.pop_perm htop).map TimerNode.addr).nodup_iff.mpr h
  exact (List.nodup_cons.mp hnd).2

/-- Pushing a later node and popping removes the top. -/
theorem push_pop_perm {m : TimerManager C} {timer timer' : TimerNode C}
    (htop : m.heap.top = some timer) (hle : timer.expire ≤ timer'.expire) :
    ((m.heap.push timer').pop.toList).Perm (timer' :: m.heap.pop.toList) := by
  have h1 := MinHeap.pop_perm (MinHeap.push_top htop hle)
  have h2 := MinHeap.push_perm m.heap timer'
  have h3 := (MinHeap.pop_perm htop).symm.cons timer'
  exact (List.perm_cons timer).mp ((h1.trans (h2.trans h3)).trans (List.Perm.swap _ _ _))

/-- The nodes of the heap after an expired top has been dealt with: those below it, and a new one
    if it repeats. -/
theorem expireTop_heap {m : TimerManager C} {now : Int} {timer : TimerNode C}
    (htop : m.heap.top = some timer) (hexp : timer.expire ≤ now)
    (hpos : m.isCurrent timer = true → timer.isRepeat = true → 0 < timer.interval) :
    (m.expireTop now timer).heap.toList.Perm m.heap.pop.toList ∨
      ∃ timer', now < timer'.expire ∧
        (m.expireTop now timer).heap.toList.Perm (timer' :: m.heap.pop.toList) := by
  unfold expireTop
  split_ifs with hc hr
  · have hpos := hpos hc hr
    refine .inr ⟨TimerNode.make m.nextAddr now timer.fd timer.callback timer.interval true, ?_,
      push_pop_perm htop ?_⟩
    · simp only [TimerNode.make, TimerNode.after]
      omega
    · simp only [TimerNode.make, TimerNode.after]
      omega
  · exact .inl (List.Perm.refl _)
  · exact .inl (List.Perm.refl _)

theorem Inv.expireTop {m : TimerManager C} (h : m.Inv) {now : Int} {timer : TimerNode C}
    (htop : m.heap.top = some timer) (hexp : timer.expire ≤ now) : (m.expireTop now timer).Inv := by
  obtain ⟨hbelow, hkeep⟩ := mem_pop h.nodup htop
  have hmem := MinHeap.top_mem htop
  have hother : ∀ id t, id ≠ timer.fd → m.map id = some t → t ∈ m.heap.pop.toList := by
    intro id t hid hm
    obtain ⟨ht, hfd⟩ := h.mapped id t hm
    refine hkeep t ht ?_
    rintro rfl
    exact hid hfd.symm
  unfold TimerManager.expireTop
  split_ifs with hc hr
  · have hpos := h.positive timer hmem hr
    refine @Inv.insert _ _ h _ (TimerNode.make m.nextAddr now timer.fd timer.callback timer.interval
      true) m.heap.pop.toList rfl (fun _ => hpos) (fun t ht => (hbelow t ht).1)
      (nodup_pop h.nodup htop) hother (push_pop_perm htop ?_)
    simp only [TimerNode.make, TimerNode.after]
    omega
  · refine ⟨nodup_pop h.nodup htop, fun t ht => h.fresh t (hbelow t ht).1, fun id t hm => ?_,
      fun t ht => h.positive t (hbelow t ht).1⟩
    simp only [Table.erase_apply] at hm
    split_ifs at hm with hid
    exact ⟨hother id t hid hm, (h.mapped id t hm).2⟩
  · refine ⟨nodup_pop h.nodup htop, fun t ht => h.fresh t (hbelow t ht).1, fun id t hm => ?_,
      fun t ht => h.positive t (hbelow t ht).1⟩
    obtain ⟨ht, hfd⟩ := h.mapped id t hm
    refine ⟨hkeep t ht ?_, hfd⟩
    rintro rfl
    exact hc ((h.isCurrent_iff hmem).mpr (by rw [hfd]; exact hm))

/-- What the map holds after an expired top has been dealt with. -/
theorem map_expireTop {m : TimerManager C} {now : Int} {timer : TimerNode C} (id : Int) :
    (m.expireTop now timer).map id =
      if m.isCurrent timer = true ∧ id = timer.fd then
        if timer.isRepeat then
          some (TimerNode.make m.nextAddr now timer.fd timer.callback timer.interval true)
        else none
      else m.map id := by
  unfold expireTop
  by_cases hc : m.isCurrent timer = true
  · by_cases hr : timer.isRepeat = true
    · simp [hc, hr, Table.insert_apply]
    · simp [hc, hr, Table.erase_apply]
  · simp [hc]

/-- What dealing with an expired top does to the table. -/
theorem table_expireTop {m : TimerManager C} {now : Int} {timer : TimerNode C} (id : Int) :
    (m.expireTop now timer).table id =
      if m.isCurrent timer = true ∧ id = timer.fd then
        if timer.isRepeat then
          some { timer.registration with deadline := TimerNode.after now timer.interval }
        else none
      else m.table id := by
  unfold table
  rw [map_expireTop]
  by_cases hc : m.isCurrent timer = true ∧ id = timer.fd
  · rw [if_pos hc, if_pos hc]
    by_cases hr : timer.isRepeat = true
    · simp [hr, TimerNode.make, TimerNode.registration]
    · simp [hr]
  · rw [if_neg hc, if_neg hc]

/-! ## The passes of a tick -/

/-- The state of a tick that started with `table`: the callbacks run so far and the manager. -/
structure Sweeping (now : Int) (table : TimerTable C) (s : TimerManager C × List (TimerNode C)) :
    Prop where
  inv : s.1.Inv
  nodup : (s.2.map TimerNode.fd).Nodup
  due : ∀ t ∈ s.2, table t.fd = some t.registration ∧ t.expire ≤ now
  sorted : s.2.Pairwise (fun t u => t.expire ≤ u.expire)
  below : ∀ t ∈ s.2, ∀ u ∈ s.1.heap.toList, t.expire ≤ u.expire
  swept : ∀ t ∈ s.2, s.1.table t.fd = table.sweep now t.fd ∧
    ∀ r, s.1.table t.fd = some r → now < r.deadline
  untouched : ∀ id, id ∉ s.2.map TimerNode.fd → s.1.table id = table id

theorem sweeping_start {m : TimerManager C} (h : m.Inv) (now : Int) :
    Sweeping now m.table (m, []) where
  inv := h
  nodup := List.nodup_nil
  due := fun _ ht => absurd ht List.not_mem_nil
  sorted := List.Pairwise.nil
  below := fun _ ht => absurd ht List.not_mem_nil
  swept := fun _ ht => absurd ht List.not_mem_nil
  untouched := fun _ _ => rfl

/-- A pass that goes on has an expired top. -/
theorem tickStep_next {now : Int} {s s' : TimerManager C × List (TimerNode C)}
    (h : tickStep now s = .ok (.next s')) :
    ∃ timer, s.1.heap.top = some timer ∧ timer.expire ≤ now ∧
      s' = (s.1.expireTop now timer, if s.1.isCurrent timer then s.2 ++ [timer] else s.2) := by
  unfold tickStep at h
  cases ht : s.1.heap.top with
  | none => simp [ht] at h
  | some timer =>
    simp only [ht] at h
    by_cases he : timer.isExpired now = true
    · rw [if_pos he] at h
      cases h
      exact ⟨timer, rfl, by simpa [TimerNode.isExpired] using he, rfl⟩
    · rw [if_neg he] at h
      cases h

/-- A pass that ends the loop finds nothing expired in the heap. -/
theorem tickStep_exit {now : Int} {s s' : TimerManager C × List (TimerNode C)}
    (h : tickStep now s = .ok (.exit s')) : s' = s ∧ ∀ t ∈ s.1.heap.toList, now < t.expire := by
  unfold tickStep at h
  cases ht : s.1.heap.top with
  | none =>
    simp only [ht] at h
    cases h
    refine ⟨rfl, ?_⟩
    intro t hm
    rw [MinHeap.toList_eq_nil ht] at hm
    exact absurd hm List.not_mem_nil
  | some timer =>
    simp only [ht] at h
    by_cases he : timer.isExpired now = true
    · rw [if_pos he] at h
      cases h
    · rw [if_neg he] at h
      cases h
      refine ⟨rfl, ?_⟩
      intro t hm
      have hle := MinHeap.top_le ht hm
      have hgt : now < timer.expire := by simpa [TimerNode.isExpired] using he
      omega

/-- After an expired top has been dealt with, the heap holds later nodes only. -/
theorem expireTop_le {m : TimerManager C} (h : m.Inv) {now : Int} {timer : TimerNode C}
    (htop : m.heap.top = some timer) (hexp : timer.expire ≤ now) {u : TimerNode C}
    (hu : u ∈ (m.expireTop now timer).heap.toList) :
    timer.expire ≤ u.expire ∧ (u ∈ m.heap.toList ∨ now < u.expire) := by
  have hpop : u ∈ m.heap.pop.toList → timer.expire ≤ u.expire ∧
      (u ∈ m.heap.toList ∨ now < u.expire) := by
    intro hin
    have hm := ((mem_pop h.nodup htop).1 u hin).1
    exact ⟨MinHeap.top_le htop hm, .inl hm⟩
  rcases expireTop_heap htop hexp (fun _ => h.positive timer (MinHeap.top_mem htop)) with
    hperm | ⟨timer', hlt, hperm⟩
  · exact hpop (hperm.subset hu)
  · rcases List.mem_cons.mp (hperm.subset hu) with rfl | hin
    · exact ⟨by omega, .inr hlt⟩
    · exact hpop hin

/-- The callback of the top is run: its id has not been dealt with before. -/
theorem Sweeping.run {now : Int} {table : TimerTable C} {m : TimerManager C} {ran : List (TimerNode C)}
    {timer : TimerNode C} (h : Sweeping now table (m, ran)) (htop : m.heap.top = some timer)
    (hexp : timer.expire ≤ now) (hc : m.isCurrent timer = true) :
    Sweeping now table (m.expireTop now timer, ran ++ [timer]) := by
  obtain ⟨hinv, hnodup, hdue, hsorted, hbelow, hswept, hunt⟩ := h
  simp only at hinv hnodup hdue hsorted hbelow hswept hunt
  have hmem := MinHeap.top_mem htop
  have hmap : m.map timer.fd = some timer := (hinv.isCurrent_iff hmem).mp hc
  have htab : m.table timer.fd = some timer.registration := table_eq_some.mpr ⟨timer, hmap, rfl⟩
  have hnew : timer.fd ∉ ran.map TimerNode.fd := by
    intro hin
    obtain ⟨t, ht, hfd⟩ := List.mem_map.mp hin
    have hlt := (hswept t ht).2 timer.registration (by rw [hfd]; exact htab)
    simp only [TimerNode.registration] at hlt
    omega
  have htable : table timer.fd = some timer.registration := by rw [← hunt _ hnew]; exact htab
  have hsweep : (m.expireTop now timer).table timer.fd = table.sweep now timer.fd := by
    rw [table_expireTop, if_pos ⟨hc, rfl⟩]
    have hdue : timer.registration.deadline ≤ now := hexp
    simp only [TimerTable.sweep, htable, hdue, if_true]
    rfl
  refine ⟨hinv.expireTop htop hexp, ?_, ?_, ?_, ?_, ?_, ?_⟩
  · rw [List.map_append, List.nodup_append]
    refine ⟨hnodup, List.nodup_singleton _, fun a ha b hb hab => hnew ?_⟩
    rw [← List.mem_singleton.mp hb, ← hab]
    exact ha
  · intro t ht
    rcases List.mem_append.mp ht with ht | ht
    · exact hdue t ht
    · rw [List.mem_singleton.mp ht]
      exact ⟨htable, hexp⟩
  · refine List.pairwise_append.mpr ⟨hsorted, List.pairwise_singleton _ _, ?_⟩
    intro t ht u hu
    rw [List.mem_singleton.mp hu]
    exact hbelow t ht timer hmem
  · intro t ht u hu
    rcases List.mem_append.mp ht with ht | ht
    · exact Int.le_trans (hbelow t ht timer hmem) (expireTop_le hinv htop hexp hu).1
    · rw [List.mem_singleton.mp ht]
      exact (expireTop_le hinv htop hexp hu).1
  · intro t ht
    rcases List.mem_append.mp ht with ht | ht
    · have hne : t.fd ≠ timer.fd := fun he => hnew (he ▸ List.mem_map_of_mem ht)
      have heq : (m.expireTop now timer).table t.fd = m.table t.fd := by
        rw [table_expireTop, if_neg (fun h => hne h.2)]
      rw [heq]
      exact hswept t ht
    · rw [List.mem_singleton.mp ht]
      refine ⟨hsweep, ?_⟩
      intro r hr
      rw [table_expireTop, if_pos ⟨hc, rfl⟩] at hr
      split_ifs at hr with hrep
      cases hr
      have := hinv.positive timer hmem hrep
      simp only [TimerNode.after]
      omega
  · intro id hid
    rw [List.map_append, List.mem_append, not_or] at hid
    have hne : id ≠ timer.fd := fun he => hid.2 (by rw [he]; exact List.mem_singleton_self _)
    rw [table_expireTop, if_neg (fun h => hne h.2)]
    exact hunt id hid.1

/-- A node that the map no longer holds is dropped. -/
theorem Sweeping.drop {now : Int} {table : TimerTable C} {m : TimerManager C} {ran : List (TimerNode C)}
    {timer : TimerNode C} (h : Sweeping now table (m, ran)) (htop : m.heap.top = some timer)
    (hexp : timer.expire ≤ now) (hc : m.isCurrent timer = false) :
    Sweeping now table (m.expireTop now timer, ran) := by
  obtain ⟨hinv, hnodup, hdue, hsorted, hbelow, hswept, hunt⟩ := h
  simp only at hinv hnodup hdue hsorted hbelow hswept hunt
  have heq : ∀ id, (m.expireTop now timer).table id = m.table id := by
    intro id
    rw [table_expireTop, if_neg (by simp [hc])]
  refine ⟨hinv.expireTop htop hexp, hnodup, hdue, hsorted, ?_, ?_, ?_⟩
  · intro t ht u hu
    exact Int.le_trans (hbelow t ht timer (MinHeap.top_mem htop)) (expireTop_le hinv htop hexp hu).1
  · intro t ht
    rw [heq]
    exact hswept t ht
  · intro id hid
    rw [heq]
    exact hunt id hid

theorem Sweeping.next {now : Int} {table : TimerTable C}
    {s s' : TimerManager C × List (TimerNode C)} (h : Sweeping now table s)
    (hstep : tickStep now s = .ok (.next s')) : Sweeping now table s' := by
  obtain ⟨m, ran⟩ := s
  obtain ⟨timer, htop, hexp, rfl⟩ := tickStep_next hstep
  cases hc : m.isCurrent timer with
  | true =>
    simp only [if_true]
    exact h.run htop hexp hc
  | false =>
    simp only [if_false, Bool.false_eq_true]
    exact h.drop htop hexp hc

/-- The number of expired nodes in the heap. -/
def expiredCount (now : Int) (s : TimerManager C × List (TimerNode C)) : Nat :=
  s.1.heap.toList.countP (fun t => decide (t.expire ≤ now))

theorem expiredCount_next {now : Int} {s s' : TimerManager C × List (TimerNode C)}
    (hpos : ∀ timer, s.1.heap.top = some timer → timer.expire ≤ now → s.1.isCurrent timer = true →
      timer.isRepeat = true → 0 < timer.interval)
    (hstep : tickStep now s = .ok (.next s')) : expiredCount now s' < expiredCount now s := by
  obtain ⟨timer, htop, hexp, rfl⟩ := tickStep_next hstep
  have hs : expiredCount now s =
      s.1.heap.pop.toList.countP (fun t => decide (t.expire ≤ now)) + 1 := by
    unfold expiredCount
    rw [← (MinHeap.pop_perm htop).countP_eq, List.countP_cons_of_pos (by simpa using hexp)]
  have hs' : expiredCount now (s.1.expireTop now timer,
      if s.1.isCurrent timer then s.2 ++ [timer] else s.2) =
      s.1.heap.pop.toList.countP (fun t => decide (t.expire ≤ now)) := by
    unfold expiredCount
    rcases expireTop_heap htop hexp (hpos timer htop hexp) with hperm | ⟨timer', hlt, hperm⟩
    · rw [hperm.countP_eq]
    · rw [hperm.countP_eq, List.countP_cons_of_neg (by simpa using hlt)]
  omega

/-- A tick ends. -/
theorem ticks_total {m : TimerManager C} (h : m.Inv) (now : Int) : ∃ ran m', Ticks now m ran m' := by
  have hrun := @Loop.run_terminates _ _ _ (tickStep now) (expiredCount now)
    (Sweeping now m.table) (fun _ _ hI hstep => hI.next hstep)
    (fun _ _ hI hstep =>
      expiredCount_next (fun timer htop _ _ => hI.inv.positive timer (MinHeap.top_mem htop)) hstep) _ _ (sweeping_start h now)
    (Nat.lt_succ_self _)
  obtain ⟨r, hr⟩ := Option.isSome_iff_exists.mp hrun
  cases r with
  | error e => exact e.elim
  | ok r => exact ⟨r.2, r.1, _, hr⟩

/-- A tick runs what is due and sweeps the table. -/
theorem ticks_spec {m m' : TimerManager C} (h : m.Inv) {now : Int} {ran : List (TimerNode C)}
    (ht : Ticks now m ran m') :
    m'.Inv ∧ TimerTable.TickOutput now m.table ran ∧ m'.table = m.table.sweep now := by
  obtain ⟨passes, hrun⟩ := ht
  obtain ⟨s, hs, hexit⟩ := Loop.run_invariant (I := Sweeping now m.table)
    (fun _ _ hI hstep => hI.next hstep) hrun (sweeping_start h now)
  obtain ⟨rfl, hlate⟩ := tickStep_exit hexit
  have hsettled : ∀ id, id ∉ ran.map TimerNode.fd → ∀ r, m.table id = some r → now < r.deadline := by
    intro id hid r hr
    obtain ⟨t, hmap, rfl⟩ := table_eq_some.mp ((hs.untouched id hid).trans hr)
    exact hlate t (hs.inv.mapped id t hmap).1
  refine ⟨hs.inv, ⟨hs.nodup, fun id r => ⟨?_, ?_⟩, hs.sorted⟩, funext ?_⟩
  · rintro ⟨t, ht, rfl, rfl⟩
    exact hs.due t ht
  · rintro ⟨hr, hle⟩
    by_cases hid : id ∈ ran.map TimerNode.fd
    · obtain ⟨t, ht, rfl⟩ := List.mem_map.mp hid
      have := (hs.due t ht).1
      rw [hr] at this
      exact ⟨t, ht, rfl, (Option.some.inj this).symm⟩
    · have := hsettled id hid r hr
      omega
  · intro id
    by_cases hid : id ∈ ran.map TimerNode.fd
    · obtain ⟨t, ht, rfl⟩ := List.mem_map.mp hid
      exact (hs.swept t ht).1
    · rw [hs.untouched id hid]
      unfold TimerTable.sweep
      cases hr : m.table id with
      | none => rfl
      | some r =>
        have := hsettled id hid r hr
        simp only
        rw [if_neg (by omega)]

/-! ## Runs -/

theorem isExpired_iff (m : TimerManager C) (now id : Int) :
    m.isExpired now id = true ↔
      m.table id = none ∨ ∃ r, m.table id = some r ∧ r.deadline ≤ now := by
  unfold isExpired table
  cases m.map id with
  | none => simp
  | some t => simp [TimerNode.isExpired, TimerNode.registration]

/-- Every call returns and keeps the invariant, and does what it does to the table. -/
theorem step_spec {m : TimerManager C} (h : m.Inv) (now : Int) {op : Op C} (hop : op.Positive) :
    (∃ out m', Step now m op out m') ∧
      ∀ out m', Step now m op out m' → m'.Inv ∧ TimerTable.Step now m.table op out m'.table := by
  cases op with
  | addTimer id cb timeoutMs isRepeat =>
    refine ⟨⟨_, _, .addTimer id cb timeoutMs isRepeat⟩, ?_⟩
    intro out m' hs
    cases hs
    refine ⟨h.addTimer now id cb hop, ?_⟩
    rw [table_addTimer]
    exact .addTimer id cb timeoutMs isRepeat
  | tick =>
    obtain ⟨ran, m', ht⟩ := ticks_total h now
    refine ⟨⟨_, _, .tick ht⟩, ?_⟩
    intro out m' hs
    cases hs with
    | tick ht =>
      obtain ⟨hinv, hout, htab⟩ := ticks_spec h ht
      rw [htab]
      exact ⟨hinv, .tick hout⟩
  | isExpired id =>
    refine ⟨⟨_, _, .isExpired id⟩, ?_⟩
    intro out m' hs
    cases hs
    exact ⟨h, .isExpired id (isExpired_iff m now id)⟩

theorem run_spec {m : TimerManager C} (h : m.Inv) {ops : List (Int × Op C)}
    (hops : ∀ op ∈ ops, op.2.Positive) :
    (∃ outs m', Run m ops outs m') ∧
      ∀ outs m', Run m ops outs m' → TimerTable.Run m.table ops outs m'.table := by
  induction ops generalizing m with
  | nil =>
    refine ⟨⟨[], m, .nil m⟩, ?_⟩
    intro outs m' hr
    cases hr
    exact .nil _
  | cons op ops ih =>
    obtain ⟨now, op⟩ := op
    obtain ⟨⟨out, m1, h1⟩, hspec⟩ := step_spec h now (hops (now, op) List.mem_cons_self)
    have hops' : ∀ op ∈ ops, op.2.Positive := fun op ho => hops op (List.mem_cons_of_mem _ ho)
    constructor
    · obtain ⟨⟨outs, m', h2⟩, -⟩ := ih (hspec out m1 h1).1 hops'
      exact ⟨out :: outs, m', .cons h1 h2⟩
    · intro outs m' hr
      cases hr with
      | cons hs hrs =>
        obtain ⟨hinv, hstep⟩ := hspec _ _ hs
        exact .cons hstep ((ih hinv hops').2 _ _ hrs)

/-- The timer manager is a timer table: for every sequence of calls in which repeating timers have an
    interval, every call returns, and what the calls show is what they show on the table. Nothing
    is assumed of the clock readings. -/
theorem run_refines_table (ops : List (Int × Op C)) (hops : ∀ op ∈ ops, op.2.Positive) :
    (∃ outs m, Run empty ops outs m) ∧
      ∀ outs m, Run empty ops outs m → TimerTable.Run Table.empty ops outs m.table :=
  run_spec inv_empty hops

/-- A repeating timer, refreshed once, and a tick at which only the first registration is due. -/
theorem run_refines_refreshed :
    (∃ outs m, Run empty [(0, .addTimer 5 "close" 1 true), (500000, .addTimer 5 "close" 1 true),
        (1000000, .tick), (1000000, .isExpired 5)] outs m) ∧
      ∀ outs m, Run empty [(0, .addTimer 5 "close" 1 true), (500000, .addTimer 5 "close" 1 true),
          (1000000, .tick), (1000000, .isExpired 5)] outs m →
        TimerTable.Run Table.empty [(0, .addTimer 5 "close" 1 true),
          (500000, .addTimer 5 "close" 1 true), (1000000, .tick), (1000000, .isExpired 5)] outs
          m.table :=
  run_refines_table _ (by simp [Op.Positive])

end TimerManager

end ModularNetServer
