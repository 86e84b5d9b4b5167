import Mathlib.Data.List.GetD
import ModularNetServer.WebSocket.WriteBuffer
import ModularNetServer.WebSocket.Proofs.TextFrameProofs

/-!
# What the socket takes of the write buffer

`write` starts at the beginning of `m_write_buf` in every call and clears the buffer only when it returns
`OK`. So the bytes that the socket takes are a prefix of the frames appended exactly as long as it takes
none after a call that it left within the buffer.
-/

namespace ModularNetServer

open Cxx

namespace WebSocketConn

/-- The status and the connection after a call are those of `write`. -/
theorem writeOver_eq_write (c : WebSocketConn) (rs : List SocketResult) :
    ((c.writeOver rs).1, (c.writeOver rs).2.2) = c.write (sendLoop c.writeBuf.length 0 rs).1 := by
  unfold writeOver write
  split_ifs with hclosed
  · rfl
  · generalize sendLoop c.writeBuf.length 0 rs = r
    obtain ⟨status, positions⟩ := r
    cases status <;> rfl

theorem sendTaken_bounds {n requested : Nat} (h : 0 < requested) :
    0 < sendTaken n requested ∧ sendTaken n requested ≤ requested ∧ sendTaken n requested < 2 ^ 31 := by
  unfold sendTaken SocketResult.taken
  omega

/-- The loop takes the bytes in their order. It comes to `OK` where it has taken all of them, or past the
    largest `int`. -/
theorem sendLoop_spec {len t : Nat} (ht : t ≤ len) (hint : t < 2 ^ 31) (rs : List SocketResult) :
    ∃ k, (sendLoop len t rs).2 = List.range' t k ∧ t + k ≤ len ∧ (0 < k ↔ t < len ∧ Accepts rs) ∧
      (t + k = len → (sendLoop len t rs).1 = .ok) ∧
      ((sendLoop len t rs).1 = .ok → t + k = len ∨ 2 ^ 31 ≤ t + k) := by
  induction rs generalizing t with
  | nil =>
    refine ⟨0, ?_⟩
    simp only [sendLoop, Accepts]
    split_ifs with h
    · simp
      omega
    · simp
      omega
  | cons r rs ih =>
    by_cases h : t < len
    · have hloop : (0 : Int) ≤ t ∧ (t : Int) < len := by omega
      cases r with
      | again =>
        refine ⟨0, ?_⟩
        simp only [sendLoop, if_pos hloop, Accepts]
        simp
        omega
      | fails =>
        refine ⟨0, ?_⟩
        simp only [sendLoop, if_pos hloop, Accepts]
        simp
        omega
      | accepts n =>
        obtain ⟨hpos, hle, hcap⟩ := @sendTaken_bounds n (len - t) (by omega)
        simp only [sendLoop, if_pos hloop, Accepts, Int.toNat_natCast]
        by_cases hover : t + sendTaken n (len - t) < 2 ^ 31
        · have htotal : toInt32 (t + sendTaken n (len - t)) = ((t + sendTaken n (len - t) : Nat) : Int) := by
            rw [toInt32_of_lt (by omega) (by omega)]
            omega
          obtain ⟨k, hrange, hk, hpos', hok, hend⟩ := @ih (t + sendTaken n (len - t)) (by omega) hover
          rw [htotal]
          refine ⟨sendTaken n (len - t) + k, ?_, by omega, ?_, ?_, ?_⟩
          · rw [hrange, List.range'_append_1]
          · simp only [and_true]
            omega
          · intro hall
            exact hok (by omega)
          · intro hall
            have := hend hall
            omega
        · -- the total has become negative, and the loop ends
          have htotal : toInt32 (t + sendTaken n (len - t)) < 0 := by
            unfold toInt32
            rw [Int.bmod_def]
            omega
          have hexit : sendLoop len (toInt32 (t + sendTaken n (len - t))) rs = (.ok, []) := by
            cases rs <;> exact if_neg (by omega)
          rw [hexit]
          refine ⟨sendTaken n (len - t), by simp, by omega, ?_, fun _ => rfl, fun _ => .inr (by omega)⟩
          simp only [and_true]
          omega
    · obtain rfl : t = len := by omega
      refine ⟨0, ?_⟩
      simp [sendLoop]

/-- What a call takes, and what it leaves in the buffer. -/
theorem writeOver_spec (c : WebSocketConn) (rs : List SocketResult) :
    ∃ k, (c.writeOver rs).2.1 = List.range k ∧ k ≤ c.writeBuf.length ∧ (0 < k ↔ c.TakesByte rs) ∧
      ((c.writeOver rs).1 = .ok → (c.writeOver rs).2.2.writeBuf = []) ∧
      ((c.writeOver rs).1 ≠ .ok → (c.writeOver rs).2.2.writeBuf = c.writeBuf) ∧
      (0 < k → k = c.writeBuf.length → (c.writeOver rs).1 = .ok) ∧
      (k = 0 → (c.writeOver rs).1 = .ok → c.writeBuf = []) := by
  unfold writeOver
  split_ifs with hclosed
  · refine ⟨0, rfl, Nat.zero_le _, ?_, by simp, by simp, by simp, by simp⟩
    unfold TakesByte
    rcases hclosed with hclosed | hclosed <;> simp [hclosed]
  · obtain ⟨k, hrange, hle, hpos, hall, hok⟩ := @sendLoop_spec c.writeBuf.length 0 (by omega) (by omega) rs
    rw [not_or, Bool.not_eq_true] at hclosed
    refine ⟨k, ?_, by omega, ?_, ?_, ?_, ?_, ?_⟩
    · rw [List.range_eq_range']
      exact hrange
    · rw [hpos]
      unfold TakesByte
      simp only [hclosed, ne_eq, not_false_eq_true, true_and, List.length_pos_iff]
    · intro h
      exact congrArg writeBuf (if_pos h)
    · intro h
      exact congrArg writeBuf (if_neg h)
    · intro _ hk
      exact hall (by omega)
    · intro hk h
      have hlen := hok h
      exact List.length_eq_zero_iff.mp (by omega)

end WebSocketConn

namespace WsOutput

variable {s s' : WsOutput} {a : Action}

/-- What every run keeps. As long as no call was interrupted the bytes taken are those cleared; after an
    interrupted call their numbers differ, unless bytes have been taken in disorder. -/
structure Inv (s : WsOutput) : Prop where
  buffer : s.conn.writeBuf = s.appended.drop s.cleared
  cleared_le : s.cleared ≤ s.appended.length
  bytes : s.bytes = s.positions.map (fun i => s.appended.getD i 0)
  bounds : ∀ i ∈ s.positions, i < s.appended.length
  whole : s.interrupted = false → s.positions.length = s.cleared
  broken : s.interrupted = true → s.positions = List.range s.positions.length →
    s.positions.length ≠ s.cleared

theorem inv_start (c : WebSocketConn) : (start c).Inv where
  buffer := rfl
  cleared_le := Nat.zero_le _
  bytes := rfl
  bounds := by simp [start]
  whole _ := rfl
  broken h := by simp [start] at h

/-- Positions in order, followed by `k` positions from `c` on. -/
theorem inOrder_append_iff (l : List Nat) (c k : Nat) :
    l ++ (List.range k).map (c + ·) = List.range (l ++ (List.range k).map (c + ·)).length ↔
      l = List.range l.length ∧ (k = 0 ∨ c = l.length) := by
  simp only [List.length_append, List.length_map, List.length_range, List.range_add]
  constructor
  · intro h
    obtain ⟨hl, hk⟩ := List.append_inj h (by simp)
    refine ⟨hl, ?_⟩
    cases k with
    | zero => exact .inl rfl
    | succ k =>
      have hhead := congrArg (fun m => m[0]?) hk
      exact .inr (by simpa using hhead)
  · rintro ⟨hl, rfl | rfl⟩
    · simpa using hl
    · rw [← hl]

/-- What a `write` does, by the number of bytes that it takes. -/
theorem step_write {results : List SocketResult} (h : s.step (.write results) = some s') :
    ∃ k, k ≤ s.conn.writeBuf.length ∧ (0 < k ↔ s.conn.TakesByte results) ∧ s'.appended = s.appended ∧
      s'.positions = s.positions ++ (List.range k).map (s.cleared + ·) ∧
      s'.bytes = s.bytes ++ (List.range k).map (fun i => s.conn.writeBuf.getD i 0) ∧
      s'.interrupted = (s.interrupted || (0 < k && k < s.conn.writeBuf.length)) ∧
      (s'.cleared = s.cleared + s.conn.writeBuf.length ∧ s'.conn.writeBuf = [] ∧
          (k = 0 → s.conn.writeBuf = []) ∨
        s'.cleared = s.cleared ∧ s'.conn.writeBuf = s.conn.writeBuf ∧
          (0 < k → k ≠ s.conn.writeBuf.length)) := by
  obtain ⟨k, hpositions, hle, hpos, hok, hkeep, hall, hnone⟩ := s.conn.writeOver_spec results
  generalize hw : s.conn.writeOver results = r at *
  obtain ⟨status, positions, conn⟩ := r
  dsimp only at hpositions hok hkeep hall hnone
  simp only [step, hw, Option.some.injEq] at h
  subst h hpositions
  refine ⟨k, hle, hpos, rfl, rfl, rfl, ?_, ?_⟩
  · rw [List.length_range]
  · by_cases hstatus : status = .ok
    · exact .inl ⟨if_pos hstatus, hok hstatus, fun hk => hnone hk hstatus⟩
    · exact .inr ⟨if_neg hstatus, hkeep hstatus, fun hk hlen => hstatus (hall hk hlen)⟩

theorem Inv.sendTextFrame (hi : s.Inv) {msg : Str} (h : s.step (.sendTextFrame msg) = some s') :
    s'.Inv := by
  simp only [step, Option.some.injEq] at h
  subst h
  refine ⟨?_, ?_, ?_, ?_, hi.whole, hi.broken⟩
  · rw [WebSocketConn.sendTextFrame_writeBuf, hi.buffer, List.drop_append_of_le_length hi.cleared_le]
  · have hle := hi.cleared_le
    simp only [List.length_append]
    omega
  · show s.bytes = _
    rw [hi.bytes]
    apply List.map_congr_left
    intro i hmem
    rw [List.getD_append _ _ _ _ (hi.bounds i hmem)]
  · intro i hmem
    have hlt := hi.bounds i hmem
    simp only [List.length_append]
    omega

theorem Inv.write (hi : s.Inv) {results : List SocketResult} (h : s.step (.write results) = some s') :
    s'.Inv := by
  obtain ⟨k, hle, -, happended, hpositions, hbytes, hinterrupted, hstatus⟩ := step_write h
  have hcleared := hi.cleared_le
  have hlen : s.conn.writeBuf.length = s.appended.length - s.cleared := by
    rw [hi.buffer, List.length_drop]
  refine ⟨?_, ?_, ?_, ?_, ?_, ?_⟩
  · rcases hstatus with ⟨hc, hbuf, -⟩ | ⟨hc, hbuf, -⟩
    · rw [hbuf, hc, happended, List.drop_eq_nil_of_le (by omega)]
    · rw [hbuf, hc, happended, hi.buffer]
  · rw [happended]
    rcases hstatus with ⟨hc, -, -⟩ | ⟨hc, -, -⟩ <;> omega
  · rw [hbytes, hpositions, happended, List.map_append, ← hi.bytes, List.map_map]
    congr 1
    apply List.map_congr_left
    intro i _
    rw [hi.buffer]
    simp [List.getD_eq_getElem?_getD]
  · intro i hmem
    rw [hpositions] at hmem
    rw [happended]
    rcases List.mem_append.mp hmem with hmem | hmem
    · exact hi.bounds i hmem
    · obtain ⟨j, hj, rfl⟩ := List.mem_map.mp hmem
      rw [List.mem_range] at hj
      omega
  · intro hfalse
    rw [hinterrupted, Bool.or_eq_false_iff] at hfalse
    have hwhole := hi.whole hfalse.1
    have hk : ¬ (0 < k ∧ k < s.conn.writeBuf.length) := by simpa using hfalse.2
    rw [hpositions, List.length_append, List.length_map, List.length_range]
    rcases hstatus with ⟨hc, -, hnone⟩ | ⟨hc, -, hall⟩
    · have hempty : k = 0 → s.conn.writeBuf.length = 0 := fun h0 => by rw [hnone h0]; rfl
      omega
    · omega
  · intro htrue hrange
    rw [hpositions, inOrder_append_iff] at hrange
    obtain ⟨horder, hnext⟩ := hrange
    rw [hpositions, List.length_append, List.length_map, List.length_range]
    cases hs : s.interrupted with
    | true =>
      have hne := hi.broken hs horder
      rcases hstatus with ⟨hc, -, hnone⟩ | ⟨hc, -, -⟩
      · have hempty : k = 0 → s.conn.writeBuf.length = 0 := fun h0 => by rw [hnone h0]; rfl
        omega
      · omega
    | false =>
      have hwhole := hi.whole hs
      rw [hinterrupted, hs] at htrue
      have hk : 0 < k ∧ k < s.conn.writeBuf.length := by simpa using htrue
      rcases hstatus with ⟨hc, -, -⟩ | ⟨hc, -, -⟩ <;> omega

theorem Inv.step (hi : s.Inv) (h : s.step a = some s') : s'.Inv := by
  cases a with
  | sendTextFrame msg => exact hi.sendTextFrame h
  | write results => exact hi.write h

/-- The bytes taken in order are a prefix of those appended. -/
theorem Inv.delivers_iff (hi : s.Inv) : s.Delivers ↔ s.positions = List.range s.positions.length := by
  refine and_iff_left_of_imp ?_
  intro horder
  have hle : s.positions.length ≤ s.appended.length := by
    by_contra hover
    have hmem : s.appended.length ∈ s.positions := by
      rw [horder, List.mem_range]
      omega
    exact Nat.lt_irrefl _ (hi.bounds _ hmem)
  have htake : s.bytes = s.appended.take s.positions.length := by
    rw [hi.bytes, horder, List.length_range]
    apply List.ext_getElem
    · simp [hle]
    · intro i h1 h2
      simp only [List.length_map, List.length_range] at h1
      simp [List.getD_eq_getElem?_getD, List.getElem?_eq_getElem (show i < s.appended.length by omega)]
  rw [htake]
  exact List.take_prefix _ _

/-- A step keeps the order of the bytes taken if and only if it does not take bytes again after an
    interrupted call. -/
theorem Inv.step_inOrder (hi : s.Inv) (h : s.step a = some s') :
    s'.positions = List.range s'.positions.length ↔
      s.positions = List.range s.positions.length ∧ s.Uninterrupted a := by
  cases a with
  | sendTextFrame msg =>
    simp only [WsOutput.step, Option.some.injEq] at h
    subst h
    simp [Uninterrupted]
  | write results =>
    obtain ⟨k, -, htakes, -, hpositions, -, -, -⟩ := step_write h
    rw [hpositions, inOrder_append_iff, Uninterrupted, ← htakes]
    refine and_congr_right ?_
    intro horder
    cases hs : s.interrupted with
    | true =>
      have hne := hi.broken hs horder
      simp only [Bool.true_eq_false, imp_false]
      omega
    | false =>
      have hwhole := hi.whole hs
      simp only [implies_true, iff_true]
      omega

/-- The exact condition under which the bytes that the socket takes are a prefix of the frames appended:
    none are taken after a call of `write` in which the socket took a part of the buffer only. -/
theorem run_delivers_iff (c : WebSocketConn) (actions : List Action) :
    ∃ s, Transition.run step (start c) actions = some s ∧
      (s.Delivers ↔ Transition.Meets step Uninterrupted (start c) actions) := by
  have htotal : ∀ (s : WsOutput) (actions : List Action), ∃ s', Transition.run step s actions = some s' := by
    intro s actions
    induction actions generalizing s with
    | nil => exact ⟨s, rfl⟩
    | cons a actions ih => cases a <;> exact ih _
  obtain ⟨s, hs⟩ := htotal (start c) actions
  have hinv : s.Inv := Transition.run_invariant_of_step (fun _ _ _ hi ha => hi.step ha) (inv_start c) hs
  refine ⟨s, hs, ?_⟩
  rw [hinv.delivers_iff]
  exact @Transition.run_iff_meets _ _ _ _ Inv _ (fun _ _ _ hi ha => hi.step ha)
    (fun _ _ _ hi ha => hi.step_inOrder ha) _ _ _ (inv_start c) rfl hs

/-- The socket takes a byte of a frame before it reports `EAGAIN`, and the next call sends it again. -/
theorem write_repeats_frame :
    ¬ ∀ (c : WebSocketConn) (actions : List Action) (s : WsOutput),
      Transition.run step (start c) actions = some s → s.Delivers := by
  intro h
  have hdelivers := (h (WebSocketConn.make.init 5)
    [.sendTextFrame (str "hi"), .write [.accepts 1, .again], .write [.accepts 4]] _ rfl).1
  revert hdelivers
  decide

end WsOutput

end ModularNetServer
