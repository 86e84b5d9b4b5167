import Mathlib.Tactic.SplitIfs
import ModularNetServer.Library.Slots
import ModularNetServer.Net.ConnLocks

/-!
# Deadlocks around connections

Each function locks at most one mutex at a time, or another one under that of the timers. Two kinds of
instructions lead out of this: `sendToSession` asks for `m_users_mtx` under `m_mutex`, and a destructor
or `closeConn` may ask for `m_mutex` wherever it runs. All other nestings agree with one order of the
mutexes, so a deadlock is a thread that asks for `m_mutex` twice, or two threads that have locked it and
`m_users_mtx` in opposite orders.
-/

namespace ModularNetServer

open Cxx

namespace ConnLocks

variable {s s' : ConnLocks} {t t' : LockThread} {i : Nat} {instr : Instr} {code : List Instr}
  {holds : List Mutex} {action : Action}

/-! ## Nesting -/

/-- Where an instruction may stand: a lock is the only one, or the second one after that of the timers;
    what may run a destructor stands under one lock at most. -/
def Allowed (holds : List Mutex) : Instr → Prop
  | .lock m => holds = [] ∨ (holds = [.timers] ∧ m ≠ .timers)
  | .unlock m => holds.head? = some m
  | .find _ => holds = [.manager]
  | .insert _ _ | .closeLocal | .closeConn _ | .closeUsers | .clear | .drop => holds.length ≤ 1
  | _ => True

/-- The instructions that are left unlock what they lock and what is held, and stand where they may. -/
def Disciplined : List Mutex → List Instr → Prop
  | holds, [] => holds = []
  | holds, instr :: code => Allowed holds instr ∧ Disciplined (held holds instr) code

/-- The locks taken in the other order, or twice. -/
def Nested (holds : List Mutex) (m : Mutex) : Prop :=
  (holds = [.manager] ∧ m ≠ .timers) ∨ (holds = [.users] ∧ m = .manager)

/-- What holds of a thread between steps. -/
def Sound (t : LockThread) : Prop :=
  Disciplined t.holds t.code ∨
    ∃ m code, t.code = .lock m :: code ∧ Nested t.holds m ∧ Disciplined (m :: t.holds) code

theorem disciplined_closeConnection (fd : Int) (holds : List Mutex) (h : holds = [] ∨ holds = [.timers])
    (code : List Instr) (hcode : Disciplined holds code) :
    Disciplined holds (LockCall.closeConnectionCode fd ++ code) := by
  rcases h with rfl | rfl <;>
    simpa [LockCall.closeConnectionCode, Disciplined, Allowed, held] using hcode

theorem disciplined_tick (expired : List Int) : Disciplined [] (LockCall.tickCode expired) := by
  refine ⟨.inl rfl, ?_⟩
  show Disciplined [.timers] _
  induction expired with
  | nil => exact ⟨rfl, rfl⟩
  | cons fd expired ih =>
    rw [List.flatMap_cons, List.append_assoc]
    exact disciplined_closeConnection fd [.timers] (.inr rfl) _ ih

/-- Every function is disciplined. -/
theorem disciplined_code (f : LockCall) : Disciplined [] f.code := by
  cases f with
  | tick expired => exact disciplined_tick expired
  | closeConnection fd => exact disciplined_closeConnection fd [] (.inl rfl) [] rfl
  | bindSession => simp [LockCall.code, LockCall.bindSessionCode, Disciplined, Allowed, held]
  | removeFd => simp [LockCall.code, LockCall.removeFdCode, Disciplined, Allowed, held]
  | sendToSession => simp [LockCall.code, LockCall.sendToSessionCode, Disciplined, Allowed, held]
  | getConn => simp [LockCall.code, LockCall.getConnCode, Disciplined, Allowed, held]
  | refreshTimer => simp [LockCall.code, LockCall.refreshTimerCode, Disciplined, Allowed, held]
  | shutdown => simp [LockCall.code, LockCall.shutdownCode, Disciplined, Allowed, held]
  | handleNewConnection =>
    simp [LockCall.code, LockCall.handleNewConnectionCode, LockCall.refreshTimerCode, Disciplined, Allowed,
      held]
  | init => simp [LockCall.code, Disciplined, Allowed, held]
  | drop => simp [LockCall.code, Disciplined, Allowed, held]

/-- Instructions that may run destructors, put in front of the others. -/
theorem Disciplined.prepend (hlen : holds.length ≤ 1) (hcode : Disciplined holds code)
    {pre : List Instr} (hpre : ∀ x ∈ pre, x = .drop ∨ ∃ c, x = .closeConn c) :
    Disciplined holds (pre ++ code) := by
  induction pre with
  | nil => exact hcode
  | cons x pre ih =>
    have hrest := ih (fun y hy => hpre y (List.mem_cons_of_mem _ hy))
    rcases hpre x List.mem_cons_self with rfl | ⟨c, rfl⟩
    · exact ⟨hlen, hrest⟩
    · exact ⟨hlen, hrest⟩

/-! ## Instructions -/

/-- After an instruction that is in order a thread goes on with what was left, after destructors
    perhaps. -/
def GoesOn (s : ConnLocks) (holds : List Mutex) (instr : Instr) (code code' : List Instr) : Prop :=
  s.InOrder holds instr ∧
    ∃ pre, code' = pre ++ code ∧ (∀ x ∈ pre, x = .drop ∨ ∃ c, x = .closeConn c) ∧
      (Allowed holds instr → pre = [] ∨ holds.length ≤ 1 ∧ held holds instr = holds)

theorem goesOn_same (h : s.InOrder holds instr) : s.GoesOn holds instr code code :=
  ⟨h, [], rfl, by simp, fun _ => .inl rfl⟩

/-- What a thread goes on with after an instruction: with what was left, or the lock that
    `sendToSession` takes next, or the lock that a `closeConn` takes. -/
theorem exec_cases (s : ConnLocks) (i : Nat) (holds : List Mutex) (code : List Instr)
    (locals : List (Option ConnId)) (instr : Instr) :
    s.GoesOn holds instr code (s.exec i code locals instr).2.1 ∨
    (∃ sessionId fd, instr = .find sessionId ∧ s.manager.sessionToFd sessionId = some fd ∧
      (s.exec i code locals instr).2.1 = LockCall.getConnCode fd ++ .drop :: code) ∨
    ∃ c fd, instr = .closeConn c ∧ s.unbinds c = some fd ∧
      (s.exec i code locals instr).2.1 = LockCall.removeFdCode fd ++ .reset c :: code := by
  cases instr with
  | lock => exact .inl (goesOn_same trivial)
  | unlock => exact .inl (goesOn_same trivial)
  | bind => exact .inl (goesOn_same trivial)
  | unbind => exact .inl (goesOn_same trivial)
  | copy => exact .inl (goesOn_same trivial)
  | reset => exact .inl (goesOn_same trivial)
  | find sessionId =>
    cases hfd : s.manager.sessionToFd sessionId with
    | none =>
      left
      simp only [exec, hfd]
      exact goesOn_same (by simp [InOrder, hfd])
    | some fd => exact .inr (.inl ⟨sessionId, fd, rfl, hfd, by simp [exec, hfd]⟩)
  | insert fd kind => exact .inl ⟨trivial, [.drop], rfl, by simp, fun h => .inr ⟨h, rfl⟩⟩
  | take fd =>
    left
    simp only [exec]
    split <;> exact goesOn_same trivial
  | init fd =>
    left
    simp only [exec]
    split <;> exact goesOn_same trivial
  | closeLocal =>
    left
    simp only [exec]
    split
    · rename_i c _
      exact ⟨trivial, [.closeConn c], rfl, by simp, fun h => .inr ⟨h, rfl⟩⟩
    · exact goesOn_same trivial
  | closeConn c =>
    cases hfd : s.unbinds c with
    | none =>
      left
      simp only [exec, hfd]
      exact goesOn_same (by simp [InOrder, hfd])
    | some fd => exact .inr (.inr ⟨c, fd, rfl, hfd, by simp [exec, hfd]⟩)
  | closeUsers =>
    refine .inl ⟨trivial, _, rfl, ?_, fun h => .inr ⟨h, rfl⟩⟩
    intro x hx
    obtain ⟨e, -, rfl⟩ := List.mem_map.mp hx
    exact .inr ⟨e.2, rfl⟩
  | clear => exact .inl ⟨trivial, _, rfl, by simp, fun h => .inr ⟨h, rfl⟩⟩
  | drop =>
    left
    simp only [exec]
    split
    · exact goesOn_same trivial
    · exact goesOn_same trivial
    · rename_i c locals
      split
      · exact goesOn_same trivial
      · exact ⟨trivial, [.closeConn c], rfl, by simp, fun h => .inr ⟨h, rfl⟩⟩

/-- The instructions of a thread are disciplined after one that is in order. -/
theorem GoesOn.disciplined {code' : List Instr} (h : s.GoesOn holds instr code code')
    (hd : Disciplined holds (instr :: code)) : Disciplined (held holds instr) code' := by
  obtain ⟨-, pre, rfl, hpre, hwhere⟩ := h
  rcases hwhere hd.1 with rfl | ⟨hlen, hheld⟩
  · exact hd.2
  · apply Disciplined.prepend _ hd.2 hpre
    rw [hheld]
    exact hlen

theorem removeFd_disciplined {fd : Int} {c : ConnId} (hcode : Disciplined holds code) :
    Disciplined (.manager :: holds) (.unbind fd :: .unlock .manager :: .reset c :: code) := by
  refine ⟨trivial, rfl, trivial, ?_⟩
  exact hcode

/-- The locks that may be held where a destructor runs. -/
theorem nested_manager (hlen : holds.length ≤ 1) (hne : ¬ (holds = [] ∨ holds = [.timers])) :
    Nested holds .manager := by
  rcases holds with - | ⟨m, - | ⟨n, holds⟩⟩
  · exact absurd (.inl rfl) hne
  · cases m with
    | manager => exact .inl ⟨rfl, by simp⟩
    | users => exact .inr ⟨rfl, rfl⟩
    | timers => exact absurd (.inr rfl) hne
  · simp at hlen

/-- A thread stays sound. -/
theorem sound_exec {locals : List (Option ConnId)} (hs : Sound ⟨instr :: code, holds, locals⟩)
    (s : ConnLocks) (i : Nat) (locals' : List (Option ConnId)) :
    Sound ⟨(s.exec i code locals instr).2.1, held holds instr, locals'⟩ := by
  rcases hs with hd | ⟨m, rest, hcode, -, hd⟩
  · replace hd : Disciplined holds (instr :: code) := hd
    rcases exec_cases s i holds code locals instr with
      h | ⟨sessionId, fd, rfl, -, hcode⟩ | ⟨c, fd, rfl, -, hcode⟩
    · exact .inl (h.disciplined hd)
    · obtain ⟨rfl, hd⟩ := hd
      refine .inr ⟨.users, _, hcode, .inl ⟨rfl, by simp⟩, ?_⟩
      refine ⟨trivial, rfl, Nat.le_refl 1, ?_⟩
      exact hd
    · obtain ⟨hlen, hd⟩ := hd
      rw [hcode]
      by_cases hm : holds = [] ∨ holds = [.timers]
      · left
        refine ⟨?_, removeFd_disciplined hd⟩
        rcases hm with rfl | rfl
        · exact .inl rfl
        · exact .inr ⟨rfl, by simp⟩
      · exact .inr ⟨.manager, _, rfl, nested_manager hlen hm, removeFd_disciplined hd⟩
  · cases hcode
    exact .inl hd

/-! ## Steps -/

theorem exec_threads (s : ConnLocks) (i : Nat) (code : List Instr) (locals : List (Option ConnId))
    (instr : Instr) : (s.exec i code locals instr).1.threads = s.threads := by
  cases instr <;> simp only [exec] <;> try rfl
  all_goals split <;> try rfl
  split <;> rfl

/-- An instruction of a thread. -/
theorem step_cases (hr : s.step (.step i) = some s') :
    ∃ instr code holds locals locals', s.threads[i]? = some ⟨instr :: code, holds, locals⟩ ∧
      s.Enabled instr ∧
      s'.threads = s.threads.set i ⟨(s.exec i code locals instr).2.1, held holds instr, locals'⟩ := by
  simp only [step] at hr
  split at hr
  · cases hr
  · rename_i t ht
    obtain ⟨tcode, holds, locals⟩ := t
    cases tcode with
    | nil => cases hr
    | cons instr code =>
      simp only [stepThread] at hr
      split at hr
      · rename_i hen
        cases hr
        refine ⟨instr, code, holds, locals, (s.exec i code locals instr).2.2, ht, hen, ?_⟩
        show List.set _ _ _ = _
        rw [exec_threads]
      · cases hr

/-- A call of a function. -/
theorem call_cases {f : LockCall} (hr : s.step (.call i f) = some s') :
    ∃ holds locals, s.threads[i]? = some ⟨[], holds, locals⟩ ∧
      s'.threads = s.threads.set i ⟨f.code, holds, locals⟩ := by
  simp only [step] at hr
  split at hr
  · cases hr
  · rename_i t ht
    split at hr
    · rename_i hcode
      cases hr
      refine ⟨t.holds, t.locals, ?_, rfl⟩
      rw [ht, ← hcode]
    · cases hr

/-- What holds between steps. -/
def Inv (s : ConnLocks) : Prop := ∀ t ∈ s.threads, Sound t

theorem Inv.start (threadCount : Nat) : (start threadCount).Inv := by
  intro t ht
  rw [List.eq_of_mem_replicate ht]
  exact .inl rfl

/-- A thread that runs no function holds no mutex. -/
theorem Sound.holds_eq_nil {locals : List (Option ConnId)} (h : Sound ⟨[], holds, locals⟩) :
    holds = [] := by
  rcases h with h | ⟨m, code, hcode, -⟩
  · exact h
  · cases hcode

theorem Inv.step (h : s.Inv) (hr : s.step action = some s') : s'.Inv := by
  intro t ht
  cases action with
  | call i f =>
    obtain ⟨holds, locals, hi, hset⟩ := call_cases hr
    rw [hset] at ht
    rcases List.mem_or_eq_of_mem_set ht with ht | rfl
    · exact h t ht
    · have hnil := (h _ (List.mem_of_getElem? hi)).holds_eq_nil
      subst hnil
      exact .inl (disciplined_code f)
  | step i =>
    obtain ⟨instr, code, holds, locals, locals', hi, -, hset⟩ := step_cases hr
    rw [hset] at ht
    rcases List.mem_or_eq_of_mem_set ht with ht | rfl
    · exact h t ht
    · exact sound_exec (h _ (List.mem_of_getElem? hi)) s i locals'

/-! ## Threads that wait for each other -/

/-- No thread asks for what it holds, and no two threads have locked the two mutexes in opposite
    orders. -/
structure Uncrossed (threads : List LockThread) : Prop where
  self : ∀ t ∈ threads, ∀ m, ¬ t.AsksUnder m m
  crossed : ∀ t ∈ threads, ∀ t' ∈ threads, t.AsksUnder .users .manager → ¬ t'.AsksUnder .manager .users

theorem asks_eq_some {m : Mutex} (h : t.asks = some m) : ∃ code, t.code = .lock m :: code := by
  unfold LockThread.asks at h
  split at h
  · rename_i m' code hcode
    cases h
    exact ⟨code, hcode⟩
  · cases h

/-- What a disciplined thread holds when it asks for a mutex is at most that of the timers. -/
theorem Disciplined.asks {m outer : Mutex} (h : Disciplined t.holds t.code) :
    t.AsksUnder outer m → outer = .timers ∧ m ≠ .timers := by
  rintro ⟨hask, hheld⟩
  obtain ⟨code, hcode⟩ := asks_eq_some hask
  rw [hcode] at h
  rcases h.1 with hnil | ⟨htimers, hm⟩
  · rw [hnil] at hheld
    cases hheld
  · rw [htimers] at hheld
    exact ⟨List.mem_singleton.mp hheld, hm⟩

/-- A thread that takes a step does not wait for anyone. -/
theorem ne_of_waits {t' : LockThread} {m : Mutex} (hen : s.Enabled instr) {locals : List (Option ConnId)}
    (hask : t.asks = some m) (ht' : t' ∈ s.threads) (hheld : m ∈ t'.holds) :
    t ≠ ⟨instr :: code, holds, locals⟩ := by
  rintro rfl
  obtain ⟨rest, hcode⟩ := asks_eq_some hask
  cases hcode
  exact hen t' ht' hheld

/-- Threads that wait for each other stay so. -/
theorem uncrossed_of_set (hi : s.threads[i]? = some t)
    (hne : ∀ x m y, x.asks = some m → y ∈ s.threads → m ∈ y.holds → x ≠ t)
    (h : Uncrossed (s.threads.set i t')) : Uncrossed s.threads where
  self := by
    rintro x hx m ⟨hask, hheld⟩
    have hmem := Slots.mem_set_of_ne hi hx (hne x m x hask hx hheld) t'
    exact h.self x hmem m ⟨hask, hheld⟩
  crossed := by
    rintro x hx y hy ⟨hxa, hxh⟩ ⟨hya, hyh⟩
    have hx' := Slots.mem_set_of_ne hi hx (hne x _ y hxa hy hyh) t'
    have hy' := Slots.mem_set_of_ne hi hy (hne y _ x hya hx hxh) t'
    exact h.crossed x hx' y hy' ⟨hxa, hxh⟩ ⟨hya, hyh⟩

/-- A thread that comes to ask for a mutex closes no cycle. -/
theorem Uncrossed.set (h : Uncrossed s.threads) (hself : ∀ m, ¬ t'.AsksUnder m m)
    (hmanager : t'.AsksUnder .users .manager → ∀ x ∈ s.threads, ¬ x.AsksUnder .manager .users)
    (husers : t'.AsksUnder .manager .users → ∀ x ∈ s.threads, ¬ x.AsksUnder .users .manager) :
    Uncrossed (s.threads.set i t') where
  self := by
    intro x hx
    rcases List.mem_or_eq_of_mem_set hx with hx | rfl
    · exact h.self x hx
    · exact hself
  crossed := by
    intro x hx y hy hxa hya
    rcases List.mem_or_eq_of_mem_set hx with hx' | hx'
    · rcases List.mem_or_eq_of_mem_set hy with hy' | hy'
      · exact h.crossed x hx' y hy' hxa hya
      · rw [hy'] at hya
        exact husers hya x hx' hxa
    · rw [hx'] at hxa
      rcases List.mem_or_eq_of_mem_set hy with hy' | hy'
      · exact hmanager hxa y hy' hya
      · rw [hy'] at hya
        have hboth := hxa.1.symm.trans hya.1
        cases hboth

/-- A disciplined thread closes no cycle. -/
theorem Uncrossed.set_disciplined (h : Uncrossed s.threads) (hd : Disciplined t'.holds t'.code) :
    Uncrossed (s.threads.set i t') := by
  apply h.set
  · intro m hask
    exact (hd.asks hask).2 (hd.asks hask).1
  · intro hask
    cases (hd.asks hask).1
  · intro hask
    cases (hd.asks hask).1

/-- A thread that asks for nothing before its step makes threads wait for each other exactly if it then
    asks for a mutex that it holds, or for one of the two mutexes under the other while another thread
    does the opposite. -/
theorem uncrossed_set_iff (hi : s.threads[i]? = some t) (hnone : t.asks = none) :
    Uncrossed (s.threads.set i t') ↔ Uncrossed s.threads ∧ (∀ m, ¬ t'.AsksUnder m m) ∧
      (t'.AsksUnder .users .manager → ∀ x ∈ s.threads, ¬ x.AsksUnder .manager .users) ∧
        (t'.AsksUnder .manager .users → ∀ x ∈ s.threads, ¬ x.AsksUnder .users .manager) := by
  have hne : ∀ (x : LockThread) (m : Mutex), x.asks = some m → x ≠ t := by
    rintro x m hask rfl
    rw [hnone] at hask
    cases hask
  have hnew : t' ∈ s.threads.set i t' := List.mem_set (List.getElem?_eq_some_iff.mp hi).1 _
  constructor
  · intro hu
    refine ⟨uncrossed_of_set hi (fun x m y hask _ _ => hne x m hask) hu, hu.self t' hnew, ?_, ?_⟩
    · intro ht' x hx hxa
      exact hu.crossed t' hnew x (Slots.mem_set_of_ne hi hx (hne x _ hxa.1) t') ht' hxa
    · intro ht' x hx hxa
      exact hu.crossed x (Slots.mem_set_of_ne hi hx (hne x _ hxa.1) t') t' hnew hxa ht'
  · rintro ⟨hu, hself, hmanager, husers⟩
    exact hu.set hself hmanager husers

/-- A step leads to threads that wait for each other if and only if they did before, or its instruction is
    not in order. -/
theorem Inv.step_uncrossed (h : s.Inv) (hr : s.step action = some s') :
    Uncrossed s'.threads ↔ Uncrossed s.threads ∧ s.StepInOrder action := by
  cases action with
  | call i f =>
    obtain ⟨holds, locals, hi, hset⟩ := call_cases hr
    have hnil := (h _ (List.mem_of_getElem? hi)).holds_eq_nil
    subst hnil
    have horder : s.StepInOrder (.call i f) := trivial
    rw [hset, and_iff_left horder]
    refine ⟨fun hu => ((uncrossed_set_iff hi rfl).mp hu).1, ?_⟩
    intro hu
    exact hu.set_disciplined (disciplined_code f)
  | step i =>
    obtain ⟨instr, code, holds, locals, locals', hi, hen, hset⟩ := step_cases hr
    have horder : s.StepInOrder (.step i) ↔ s.InOrder holds instr := by simp [StepInOrder, hi]
    have hback : Uncrossed s'.threads → Uncrossed s.threads := by
      rw [hset]
      apply uncrossed_of_set hi
      intro x m y hask hy hheld
      exact ne_of_waits hen hask hy hheld
    have hsound := h _ (List.mem_of_getElem? hi)
    rw [horder]
    rcases hsound with hd | ⟨m, rest, hcode, -, hd⟩
    · rcases exec_cases s i holds code locals instr with
        hgo | ⟨sessionId, fd, rfl, hfd, hcode⟩ | ⟨c, fd, rfl, hfd, hcode⟩
      · rw [and_iff_left hgo.1]
        refine ⟨hback, ?_⟩
        intro hu
        rw [hset]
        exact hu.set_disciplined (hgo.disciplined hd)
      · -- The thread asks for the lock of `getConn` under that of `sendToSession`.
        have hholds : holds = [.manager] := hd.1
        subst hholds
        rw [hset, hcode, uncrossed_set_iff hi rfl]
        simp [LockThread.AsksUnder, LockThread.asks, LockCall.getConnCode, held, InOrder, hfd]
      · -- The thread asks for the lock of `removeFd` under what is held where it closes the connection.
        rw [hset, hcode, uncrossed_set_iff hi rfl]
        simp [LockThread.AsksUnder, LockThread.asks, LockCall.removeFdCode, held, InOrder, hfd]
    · cases hcode
      rw [and_iff_left (show s.InOrder holds (.lock m) from trivial)]
      refine ⟨hback, ?_⟩
      intro hu
      rw [hset]
      exact hu.set_disciplined hd

/-- What a thread may ask for under a mutex. -/
theorem Sound.asksUnder (h : Sound t) {outer m : Mutex} (ha : t.AsksUnder outer m) :
    m ≠ .timers ∧ (outer = .users → m = .manager) := by
  rcases h with hd | ⟨m', code, hcode, hnested, -⟩
  · obtain ⟨rfl, hm⟩ := hd.asks ha
    exact ⟨hm, by simp⟩
  · obtain ⟨hask, hheld⟩ := ha
    have hm : m' = m := by
      rw [LockThread.asks, hcode] at hask
      exact Option.some.inj hask
    subst hm
    rcases hnested with ⟨hholds, hm⟩ | ⟨hholds, rfl⟩
    · rw [hholds] at hheld
      exact ⟨hm, by simp [List.mem_singleton.mp hheld]⟩
    · exact ⟨by simp, fun _ => rfl⟩

/-- An order of the mutexes in which one of the two comes before the other. -/
def lockRank (first : Mutex) (m : Mutex) : Nat :=
  if m = .timers then 0 else if m = first then 1 else 2

theorem asks_getElem? {m : Mutex} (h : s.asks i = some m) :
    ∃ t ∈ s.threads, t.asks = some m ∧ s.holds i = t.holds := by
  obtain ⟨t, ht, hask⟩ := Option.bind_eq_some_iff.mp h
  exact ⟨t, List.mem_of_getElem? ht, hask, by simp [holds, ht]⟩

theorem holds_getElem? (h : s.threads[i]? = some t) : s.asks i = t.asks ∧ s.holds i = t.holds := by
  simp [asks, ConnLocks.holds, h]

/-- A mutex that is asked for comes after one that is held, if only the lock of the timers and the first
    of the others are ever held. -/
theorem lockRank_lt {first m n : Mutex} (hm : m ≠ .timers) (hnm : n ≠ m)
    (hfirst : n = .timers ∨ n = first) : lockRank first n < lockRank first m := by
  unfold lockRank
  rw [if_neg hm]
  rcases hfirst with rfl | rfl
  · rw [if_pos rfl]
    split <;> omega
  · rw [if_neg hnm.symm, if_pos rfl]
    split <;> omega

/-- What a thread asks for while it holds a mutex. -/
theorem Inv.asks_while_held (h : s.Inv) (hu : Uncrossed s.threads) {m n : Mutex}
    (hask : s.asks i = some m) (hn : n ∈ s.holds i) :
    m ≠ .timers ∧ n ≠ m ∧ (n = .users → m = .manager) ∧ ∃ t ∈ s.threads, t.AsksUnder n m := by
  obtain ⟨t, ht, hask, hholds⟩ := asks_getElem? hask
  rw [hholds] at hn
  obtain ⟨hm, husers⟩ := (h t ht).asksUnder ⟨hask, hn⟩
  refine ⟨hm, ?_, husers, t, ht, hask, hn⟩
  rintro rfl
  exact hu.self t ht n ⟨hask, hn⟩

/-- Threads that do not cross follow an order of the mutexes. -/
theorem Inv.rank_lt (h : s.Inv) (hu : Uncrossed s.threads) :
    ∃ first, ∀ i m, s.asks i = some m → ∀ n ∈ s.holds i, lockRank first n < lockRank first m := by
  by_cases hx : ∃ x ∈ s.threads, x.AsksUnder .manager .users
  · obtain ⟨x, hxm, hxa⟩ := hx
    refine ⟨.manager, ?_⟩
    intro i m hask n hn
    obtain ⟨hm, hnm, husers, t, ht, ha⟩ := h.asks_while_held hu hask hn
    apply lockRank_lt hm hnm
    cases n with
    | users =>
      obtain rfl := husers rfl
      exact (hu.crossed t ht x hxm ha hxa).elim
    | manager => exact .inr rfl
    | timers => exact .inl rfl
  · refine ⟨.users, ?_⟩
    intro i m hask n hn
    obtain ⟨hm, hnm, -, t, ht, ha⟩ := h.asks_while_held hu hask hn
    apply lockRank_lt hm hnm
    cases n with
    | users => exact .inr rfl
    | manager =>
      cases m with
      | users => exact (hx ⟨t, ht, ha⟩).elim
      | manager => exact (hnm rfl).elim
      | timers => exact (hm rfl).elim
    | timers => exact .inl rfl

/-- Threads wait in a cycle if and only if one asks for what it holds or two have locked the two mutexes
    in opposite orders. -/
theorem Inv.deadlock_iff (h : s.Inv) : ¬ WaitGraph.Deadlock s.asks s.holds ↔ Uncrossed s.threads := by
  constructor
  · intro hfree
    constructor
    · rintro t ht m ⟨hask, hheld⟩
      obtain ⟨i, hi⟩ := List.mem_iff_getElem?.mp ht
      obtain ⟨ha, hh⟩ := holds_getElem? hi
      rw [← ha] at hask
      rw [← hh] at hheld
      exact hfree (WaitGraph.deadlock_of_self hask hheld)
    · rintro t ht t' ht' ⟨hask, hheld⟩ ⟨hask', hheld'⟩
      obtain ⟨i, hi⟩ := List.mem_iff_getElem?.mp ht
      obtain ⟨j, hj⟩ := List.mem_iff_getElem?.mp ht'
      obtain ⟨ha, hh⟩ := holds_getElem? hi
      obtain ⟨ha', hh'⟩ := holds_getElem? hj
      rw [← ha] at hask
      rw [← hh] at hheld
      rw [← ha'] at hask'
      rw [← hh'] at hheld'
      exact hfree (WaitGraph.deadlock_of_crossed hask hheld' hask' hheld)
  · intro hu
    obtain ⟨first, hrank⟩ := h.rank_lt hu
    exact WaitGraph.not_deadlock_of_rank (lockRank first) hrank

/-! ## Runs -/

/-- In every run, no thread asks for a mutex that it holds and no threads wait in a cycle if and only if
    every instruction was in order. -/
theorem run_deadlock_free_iff (threadCount : Nat) {actions : List Action} {s : ConnLocks}
    (hr : Transition.run step (start threadCount) actions = some s) :
    ((∀ i m, s.asks i = some m → m ∉ s.holds i) ∧ ¬ WaitGraph.Deadlock s.asks s.holds) ↔
      Transition.Meets step StepInOrder (start threadCount) actions := by
  have h : s.Inv := Transition.run_invariant_of_step (fun _ _ _ hi ha => hi.step ha)
    (Inv.start threadCount) hr
  have hfirst : Uncrossed (start threadCount).threads := by
    constructor
    · rintro t ht m ⟨hask, -⟩
      rw [List.eq_of_mem_replicate ht] at hask
      cases hask
    · rintro t ht t' - ⟨hask, -⟩
      rw [List.eq_of_mem_replicate ht] at hask
      cases hask
  have hiff : Uncrossed s.threads ↔ Transition.Meets step StepInOrder (start threadCount) actions :=
    Transition.run_iff_meets (fun _ _ _ hi ha => hi.step ha)
      (fun _ _ _ hi ha => Inv.step_uncrossed hi ha) (Inv.start threadCount) hfirst hr
  rw [h.deadlock_iff, ← hiff, and_iff_right_iff_imp]
  intro hu i m hask hheld
  obtain ⟨t, ht, hask, hholds⟩ := asks_getElem? hask
  rw [hholds] at hheld
  exact hu.self t ht m ⟨hask, hheld⟩

/-- `n` steps of a thread. -/
def steps (i n : Nat) : List Action := List.replicate n (.step i)

/-- A WebSocket connection is accepted as 5, and bound to a session. -/
def boundConn : List Action :=
  .call 0 (.handleNewConnection 5 .webSocket) :: steps 0 8 ++ .call 0 (.bindSession 5 (str "a")) :: steps 0 3

/-- It is sent a message, and then closed. -/
def sendThenClose : List Action :=
  boundConn ++ .call 1 (.sendToSession (str "a")) :: steps 1 7 ++ .call 0 (.closeConnection 5) :: steps 0 11

theorem run_deadlock_free_iff_sendThenClose :
    ∃ s, Transition.run step (start 2) sendThenClose = some s ∧
      (∀ i m, s.asks i = some m → m ∉ s.holds i) ∧ ¬ WaitGraph.Deadlock s.asks s.holds :=
  ⟨_, rfl, (@run_deadlock_free_iff 2 sendThenClose _ rfl).mpr (by decide)⟩

/-- It is closed while a message is being sent to it. -/
def closeDuringSend : List Action :=
  boundConn ++ .call 1 (.sendToSession (str "a")) :: steps 1 5 ++ .call 0 (.closeConnection 5) :: steps 0 6 ++
    steps 1 2

/-- The server shuts down while a message is being sent to it. -/
def shutdownDuringSend : List Action :=
  boundConn ++ .call 0 .shutdown :: steps 0 5 ++ .call 1 (.sendToSession (str "a")) :: steps 1 2 ++ steps 0 1

/-- The sending thread drops the last reference and asks for the mutex that it holds; or it and the
    thread that shuts down wait for each other. -/
theorem send_deadlocks :
    (∃ s, Transition.run step (start 2) closeDuringSend = some s ∧ s.asks 1 = some .manager ∧
      .manager ∈ s.holds 1) ∧
    ∃ s, Transition.run step (start 2) shutdownDuringSend = some s ∧ s.asks 0 = some .manager ∧
      .manager ∈ s.holds 1 ∧ s.asks 1 = some .users ∧ .users ∈ s.holds 0 ∧
        WaitGraph.Deadlock s.asks s.holds := by
  refine ⟨⟨_, rfl, rfl, by decide⟩, ?_⟩
  obtain ⟨s, hr, ha, hh, ha', hh'⟩ : ∃ s, Transition.run step (start 2) shutdownDuringSend = some s ∧
      s.asks 0 = some .manager ∧ .manager ∈ s.holds 1 ∧ s.asks 1 = some .users ∧ .users ∈ s.holds 0 :=
    ⟨_, rfl, rfl, by decide, rfl, by decide⟩
  exact ⟨s, hr, ha, hh, ha', hh', WaitGraph.deadlock_of_crossed ha hh ha' hh'⟩

end ConnLocks

end ModularNetServer
