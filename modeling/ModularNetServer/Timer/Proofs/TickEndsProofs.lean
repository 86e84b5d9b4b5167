import ModularNetServer.Timer.Proofs.TimerManagerProofs

/-!
# When a tick ends

Nothing keeps a repeating timer from having no interval. The node that `tick` pushes for one is due at
once, so it lies in the heap for the next pass; where it is due even before the node that it replaces,
`pop` removes the new node instead of the old. `Addressed` is what holds of a manager nonetheless.
-/

namespace ModularNetServer

variable {C : Type*}

namespace TimerManager

/-- Every repeating timer of the map lies in the heap. -/
def KeepsRepeating (m : TimerManager C) : Prop :=
  ∀ id t, m.map id = some t → t.isRepeat = true → t ∈ m.heap.toList

/-- A tick ends, with every repeating timer of the map in the heap. -/
def EndsKept (now : Int) (m : TimerManager C) : Prop :=
  ∃ ran m', Ticks now m ran m' ∧ m'.KeepsRepeating

/-- Every repeating timer of the map that is due has an interval. -/
def RepeatsLater (now : Int) (m : TimerManager C) : Prop :=
  ∀ id t, m.map id = some t → t.isRepeat = true → t.expire ≤ now → 0 < t.interval

/-- Something holds wherever a sequence of calls comes to a tick. -/
def EveryTick (P : Int → TimerManager C → Prop) (m : TimerManager C) : List (Int × Op C) → Prop
  | [] => True
  | (now, op) :: ops => (op = .tick → P now m) ∧ ∀ out m', Step now m op out m' → EveryTick P m' ops

/-- The invariant of a manager: no two nodes have one address. -/
structure Addressed (m : TimerManager C) : Prop where
  nodup : (m.heap.toList.map TimerNode.addr).Nodup
  fresh : ∀ t ∈ m.heap.toList, t.addr < m.nextAddr
  mapped : ∀ id t, m.map id = some t → t.fd = id ∧ t.addr < m.nextAddr
  agree : ∀ id t, m.map id = some t → ∀ u ∈ m.heap.toList, u.addr = t.addr → u = t

theorem addressed_empty : Addressed (empty : TimerManager C) where
  nodup := List.nodup_nil
  fresh := fun _ h => absurd h List.not_mem_nil
  mapped := fun _ _ h => by cases h
  agree := fun _ _ h => by cases h

theorem Addressed.isCurrent_iff {m : TimerManager C} (h : m.Addressed) {timer : TimerNode C}
    (ht : timer ∈ m.heap.toList) : m.isCurrent timer = true ↔ m.map timer.fd = some timer :=
  isCurrent_iff_of_addr fun t hm ha => (h.agree timer.fd t hm timer ht ha.symm).symm

/-! ## One call -/

/-- The heap and the map lose nodes. -/
theorem Addressed.shrink {m : TimerManager C} (h : m.Addressed)
    {heap : MinHeap (TimerNode C) TimerNode.expire} {map : Table Int (TimerNode C)}
    (hnd : (heap.toList.map TimerNode.addr).Nodup) (hheap : ∀ t ∈ heap.toList, t ∈ m.heap.toList)
    (hmap : ∀ id t, map id = some t → m.map id = some t) : Addressed ⟨heap, map, m.nextAddr⟩ where
  nodup := hnd
  fresh := fun t ht => h.fresh t (hheap t ht)
  mapped := fun id t hm => h.mapped id t (hmap id t hm)
  agree := fun id t hm u hu => h.agree id t (hmap id t hm) u (hheap u hu)

/-- A new node is pushed and mapped. -/
theorem Addressed.push {m : TimerManager C} (h : m.Addressed) {timer : TimerNode C}
    (haddr : timer.addr = m.nextAddr) :
    Addressed ⟨m.heap.push timer, m.map.insert timer.fd timer, m.nextAddr + 1⟩ := by
  have hperm := MinHeap.push_perm m.heap timer
  have hnew : ∀ t ∈ m.heap.toList, t.addr ≠ timer.addr := by
    intro t ht
    have := h.fresh t ht
    omega
  refine ⟨?_, ?_, ?_, ?_⟩
  · rw [(hperm.map _).nodup_iff, List.map_cons, List.nodup_cons]
    refine ⟨?_, h.nodup⟩
    intro hin
    obtain ⟨t, ht, hta⟩ := List.mem_map.mp hin
    exact hnew t ht hta
  · intro t ht
    simp only
    rcases List.mem_cons.mp (hperm.subset ht) with rfl | ht
    · omega
    · have := h.fresh t ht
      omega
  · intro id t hm
    simp only [Table.insert_apply] at hm ⊢
    split_ifs at hm with hid
    · cases hm
      exact ⟨hid.symm, by omega⟩
    · obtain ⟨hfd, hlt⟩ := h.mapped id t hm
      exact ⟨hfd, by omega⟩
  · intro id t hm u hu ha
    simp only [Table.insert_apply] at hm
    split_ifs at hm with hid
    · cases hm
      rcases List.mem_cons.mp (hperm.subset hu) with rfl | hu
      · rfl
      · exact absurd ha (hnew u hu)
    · rcases List.mem_cons.mp (hperm.subset hu) with rfl | hu
      · have := (h.mapped id t hm).2
        omega
      · exact h.agree id t hm u hu ha

theorem Addressed.addTimer {m : TimerManager C} (h : m.Addressed) (now id : Int) (cb : C) (timeoutMs : Int)
    (isRepeat : Bool) : (m.addTimer now id cb timeoutMs isRepeat).Addressed :=
  @Addressed.push _ _ h (TimerNode.make m.nextAddr now id cb timeoutMs isRepeat) rfl

theorem KeepsRepeating.addTimer {m : TimerManager C} (h : m.KeepsRepeating) (now id : Int) (cb : C)
    (timeoutMs : Int) (isRepeat : Bool) : (m.addTimer now id cb timeoutMs isRepeat).KeepsRepeating := by
  intro id' t hm hr
  have hperm := MinHeap.push_perm m.heap (TimerNode.make m.nextAddr now id cb timeoutMs isRepeat)
  simp only [TimerManager.addTimer, Table.insert_apply] at hm
  split_ifs at hm with hid
  · cases hm
    exact hperm.symm.subset List.mem_cons_self
  · exact hperm.symm.subset (List.mem_cons_of_mem _ (h id' t hm hr))

/-- A popped heap has no new nodes, whichever node it has lost. -/
theorem Addressed.pop {m : TimerManager C} (h : m.Addressed) {map : Table Int (TimerNode C)}
    (hmap : ∀ id t, map id = some t → m.map id = some t) : Addressed ⟨m.heap.pop, map, m.nextAddr⟩ := by
  cases htop : m.heap.top with
  | none =>
    have hnil := MinHeap.toList_eq_nil htop
    have hpop : m.heap.pop.toList = [] := by
      have hitems : m.heap.items = #[] := by simpa [MinHeap.toList] using hnil
      simp [MinHeap.toList, MinHeap.pop, hitems, Heap.pop, Heap.sink, Heap.siftUp, Array.swapIfInBounds]
    exact h.shrink (by simp [hpop]) (by simp [hpop]) hmap
  | some timer => exact h.shrink (nodup_pop h.nodup htop) (fun t ht => ((mem_pop h.nodup htop).1 t ht).1) hmap

theorem Addressed.expireTop {m : TimerManager C} (h : m.Addressed) (now : Int) (timer : TimerNode C) :
    (m.expireTop now timer).Addressed := by
  unfold TimerManager.expireTop
  split_ifs with hc hr
  · exact (@Addressed.push _ _ h (TimerNode.make m.nextAddr now timer.fd timer.callback timer.interval true)
      rfl).pop (fun _ _ hm => hm)
  · exact h.pop (fun id t hm => (Table.of_erase_eq_some hm).2)
  · exact h.pop (fun _ _ hm => hm)

/-! ## The passes of a tick -/

/-- A pass leaves a due timer without an interval behind exactly if it finds one. -/
theorem repeatsLater_expireTop {m : TimerManager C} (h : m.Addressed) {now : Int} {timer : TimerNode C}
    (htop : m.heap.top = some timer) (hexp : timer.expire ≤ now) :
    (m.expireTop now timer).RepeatsLater now ↔ m.RepeatsLater now := by
  have hcur := h.isCurrent_iff (MinHeap.top_mem htop)
  constructor
  · intro hlater id t hm hr hle
    by_cases ht : t = timer
    · -- the node that is pushed for the top has the interval of the top
      subst ht
      obtain rfl := (h.mapped id t hm).1
      by_contra hneg
      refine hneg (hlater t.fd (TimerNode.make m.nextAddr now t.fd t.callback t.interval true) ?_ rfl ?_)
      · rw [map_expireTop, if_pos ⟨hcur.mpr hm, rfl⟩, if_pos hr]
      · simp only [TimerNode.make, TimerNode.after]
        omega
    · refine hlater id t ?_ hr hle
      rw [map_expireTop, if_neg]
      · exact hm
      · rintro ⟨hc, rfl⟩
        exact ht (Option.some.inj (hm.symm.trans (hcur.mp hc)))
  · intro hlater id t hm hr hle
    rw [map_expireTop] at hm
    split_ifs at hm with hc hrep
    · cases hm
      exact hlater timer.fd timer (hcur.mp hc.1) hrep hexp
    · exact hlater id t hm hr hle

/-- A pass keeps the repeating timers in the heap, as long as they have intervals. -/
theorem KeepsRepeating.expireTop {m : TimerManager C} (hkept : m.KeepsRepeating) (h : m.Addressed) {now : Int}
    {timer : TimerNode C} (hlater : m.RepeatsLater now) (htop : m.heap.top = some timer)
    (hexp : timer.expire ≤ now) : (m.expireTop now timer).KeepsRepeating := by
  have hother : ∀ id t, m.map id = some t → t.isRepeat = true → t ≠ timer → t ∈ m.heap.pop.toList :=
    fun id t hm hr hne => (mem_pop h.nodup htop).2 t (hkept id t hm hr) hne
  have hcur := h.isCurrent_iff (MinHeap.top_mem htop)
  intro id t hm hr
  unfold TimerManager.expireTop at hm ⊢
  split_ifs at hm ⊢ with hc hrep
  · have hpos := hlater timer.fd timer (hcur.mp hc) hrep hexp
    have hperm := @push_pop_perm _ m timer
      (TimerNode.make m.nextAddr now timer.fd timer.callback timer.interval true) htop (by
        simp only [TimerNode.make, TimerNode.after]
        omega)
    simp only [Table.insert_apply] at hm
    split_ifs at hm with hid
    · cases hm
      exact hperm.symm.subset List.mem_cons_self
    · refine hperm.symm.subset (List.mem_cons_of_mem _ (hother id t hm hr ?_))
      rintro rfl
      exact hid (h.mapped id t hm).1.symm
  · change m.map.erase timer.fd id = some t at hm
    obtain ⟨hid, hmap⟩ := Table.of_erase_eq_some hm
    refine hother id t hmap hr ?_
    rintro rfl
    exact hid (h.mapped id t hmap).1.symm
  · refine hother id t hm hr ?_
    rintro rfl
    exact hc (hcur.mpr ((h.mapped id t hm).1.symm ▸ hm))

/-- What the passes keep while every due timer has an interval. -/
def Settling (now : Int) (s : TimerManager C × List (TimerNode C)) : Prop :=
  s.1.Addressed ∧ s.1.KeepsRepeating ∧ s.1.RepeatsLater now

theorem Settling.next {now : Int} {s s' : TimerManager C × List (TimerNode C)} (h : Settling now s)
    (hstep : tickStep now s = .ok (.next s')) : Settling now s' := by
  obtain ⟨haddr, hkept, hlater⟩ := h
  obtain ⟨timer, htop, hexp, rfl⟩ := tickStep_next hstep
  exact ⟨haddr.expireTop now timer, hkept.expireTop haddr hlater htop hexp,
    (repeatsLater_expireTop haddr htop hexp).mpr hlater⟩

theorem Settling.expiredCount_next {now : Int} {s s' : TimerManager C × List (TimerNode C)}
    (h : Settling now s) (hstep : tickStep now s = .ok (.next s')) : expiredCount now s' < expiredCount now s := by
  refine TimerManager.expiredCount_next ?_ hstep
  intro timer htop hexp hc hr
  exact h.2.2 timer.fd timer ((h.1.isCurrent_iff (MinHeap.top_mem htop)).mp hc) hr hexp

theorem Settling.ticks {now : Int} {m m' : TimerManager C} {ran : List (TimerNode C)} (h : Settling now (m, []))
    (ht : Ticks now m ran m') : m'.Addressed ∧ m'.KeepsRepeating := by
  obtain ⟨passes, hrun⟩ := ht
  obtain ⟨s, hs, hexit⟩ := Loop.run_invariant (fun _ _ hI hstep => hI.next hstep) hrun h
  obtain ⟨rfl, -⟩ := tickStep_exit hexit
  exact ⟨hs.1, hs.2.1⟩

/-- A tick that finds a due timer without an interval does not end, unless it loses a repeating timer. -/
theorem EndsKept.repeatsLater {now : Int} {m : TimerManager C} (h : m.Addressed) (hends : EndsKept now m) :
    m.RepeatsLater now := by
  obtain ⟨ran, m', ⟨passes, hrun⟩, hkept⟩ := hends
  by_contra hlater
  obtain ⟨s, ⟨-, hs⟩, hexit⟩ :=
    Loop.run_invariant (I := fun s => s.1.Addressed ∧ ¬ s.1.RepeatsLater now) (by
      rintro s s' ⟨haddr, hlater⟩ hstep
      obtain ⟨timer, htop, hexp, rfl⟩ := tickStep_next hstep
      exact ⟨haddr.expireTop now timer, (repeatsLater_expireTop haddr htop hexp).not.mpr hlater⟩)
      hrun ⟨h, hlater⟩
  obtain ⟨rfl, hlate⟩ := tickStep_exit hexit
  refine hs ?_
  intro id t hm hr hle
  have := hlate t (hkept id t hm hr)
  omega

theorem endsKept_iff {m : TimerManager C} (h : m.Addressed) (hkept : m.KeepsRepeating) (now : Int) :
    EndsKept now m ↔ m.RepeatsLater now := by
  refine ⟨fun hends => hends.repeatsLater h, fun hlater => ?_⟩
  have hstart : Settling now (m, []) := ⟨h, hkept, hlater⟩
  have hrun := @Loop.run_terminates _ _ _ (tickStep now) (expiredCount now) (Settling now)
    (fun _ _ hI hstep => hI.next hstep) (fun _ _ hI hstep => hI.expiredCount_next hstep) _ _ hstart
    (Nat.lt_succ_self _)
  obtain ⟨r, hr⟩ := Option.isSome_iff_exists.mp hrun
  cases r with
  | error e => exact e.elim
  | ok r => exact ⟨r.2, r.1, ⟨_, hr⟩, (hstart.ticks ⟨_, hr⟩).2⟩

/-! ## Runs -/

theorem everyTick_iff {m : TimerManager C} (h : m.Addressed) (hkept : m.KeepsRepeating)
    (ops : List (Int × Op C)) : EveryTick EndsKept m ops ↔ EveryTick RepeatsLater m ops := by
  induction ops generalizing m with
  | nil => exact Iff.rfl
  | cons op ops ih =>
    obtain ⟨now, op⟩ := op
    simp only [EveryTick, endsKept_iff h hkept now]
    refine and_congr_right fun hlater => forall_congr' fun out => forall_congr' fun m' =>
      forall_congr' fun hstep => ?_
    cases hstep with
    | addTimer id cb timeoutMs isRepeat =>
      exact ih (h.addTimer now id cb timeoutMs isRepeat) (hkept.addTimer now id cb timeoutMs isRepeat)
    | tick ht =>
      have hsettling : Settling now (m, []) := ⟨h, hkept, hlater rfl⟩
      obtain ⟨haddr', hkept'⟩ := hsettling.ticks ht
      exact ih haddr' hkept'
    | isExpired id => exact ih h hkept

/-- For all calls on a new manager, at any clock readings: every tick ends with every repeating timer of the
    map in the heap if and only if no tick finds a due repeating timer without an interval in the map. -/
theorem everyTick_endsKept_iff (ops : List (Int × Op C)) :
    EveryTick EndsKept empty ops ↔ EveryTick RepeatsLater empty ops :=
  everyTick_iff addressed_empty (fun _ _ h => by cases h) ops

/-- A repeating timer without an interval, and a tick. -/
theorem tick_without_interval :
    ¬ EveryTick EndsKept empty [(0, .addTimer 5 "close" 0 true), (0, .tick)] := by
  intro h
  have hends := (h.2 _ _ (.addTimer 5 "close" 0 true)).1 rfl
  have hlater := hends.repeatsLater (addressed_empty.addTimer 0 5 "close" 0 true)
  have hpos := hlater 5 (TimerNode.make 0 0 5 "close" 0 true) rfl rfl (by decide)
  exact absurd hpos (by decide)

end TimerManager

end ModularNetServer
