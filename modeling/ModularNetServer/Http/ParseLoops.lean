import ModularNetServer.Http.ReadSide

/-!
# The two loops of `parseHttpRequest`

`ReadSide.parseHttpRequest` makes one loop of two nested ones. Here are the two, as they stand in
`http_conn.cpp`, with the proof that they do the same.
-/

namespace ModularNetServer

open Cxx

/-- The C string at the start of `m_read_buf`. -/
def ReadBuffer.cString (b : ReadBuffer) : Str := Scan.upTo 0 b.mem

/-- Removing a line that a search has found shortens the C string at the start. -/
theorem ReadBuffer.cString_removeLine_lt {b : ReadBuffer} {pos : Nat}
    (h : b.strstr ReadSide.crlf = some pos) :
    (b.removeLine (pos + 2)).cString.length < b.cString.length :=
  visible_removeLine_lt (by omega) (strstr_le h)

theorem ParseState.rank_le (s : ParseState) : s.rank ≤ 3 := by
  cases s <;> decide

namespace ReadSide

/-- One pass of the loop over the header lines: `return false` leaves both loops, `break` only this one. -/
def headerStep (c : ReadSide) :
    Except Escape (Loop.Pass ReadSide (Loop.Pass ReadSide (Bool × ReadSide))) :=
  match c.readBuf.strstr crlf with
  | none => .ok (.exit (.exit (false, c)))
  | some pos =>
    match HttpRequest.parseHeaders (c.readBuf.mem.take pos) c.httpBase with
    | .error e => .error e
    | .ok (true, base) => .ok (.next ⟨c.readBuf.removeLine (pos + 2), c.parseState, base⟩)
    | .ok (false, base) => .ok (.exit (.next ⟨c.readBuf.removeLine (pos + 2), .body, base⟩))

/-- Each header line that does not end the headers shortens the C string. -/
theorem headerStep_decreases : Loop.Decreases headerStep fun c => c.readBuf.cString.length := by
  intro c c' h
  unfold headerStep at h
  split at h
  · cases h
  · rename_i pos hpos
    split at h <;> cases h
    exact ReadBuffer.cString_removeLine_lt hpos

theorem parseState_headerStep {c c' : ReadSide} (h : headerStep c = .ok (.next c')) :
    c'.parseState = c.parseState := by
  unfold headerStep at h
  split at h
  · cases h
  · split at h <;> cases h
    rfl

/-- The loop over the header lines, with what the outer loop does after it. -/
def headerLoop (c : ReadSide) : Except Escape (Loop.Pass ReadSide (Bool × ReadSide)) :=
  Loop.eval headerStep (fun c => c.readBuf.cString.length) headerStep_decreases c

/-- After the header lines comes the body. -/
theorem parseState_headerLoop {c c' : ReadSide} (h : c.headerLoop = .ok (.next c')) :
    c'.parseState = .body := by
  obtain ⟨d, -, hend⟩ := @Loop.eval_ends _ _ _ _ _ headerStep_decreases c
  unfold headerLoop at h
  rw [h] at hend
  change headerStep d = .ok (.exit (.next c')) at hend
  unfold headerStep at hend
  split at hend
  · cases hend
  · split at hend <;> cases hend
    rfl

variable (parseJson : Str → Option Json)

/-- One pass of the outer loop, which has a loop of its own only in the state for the headers. -/
def outerStep (c : ReadSide) : Except Escape (Loop.Pass ReadSide (Bool × ReadSide)) :=
  match c.parseState with
  | .headers => c.headerLoop
  | _ => parseStep parseJson c

theorem outerStep_of_ne {c : ReadSide} (hstate : c.parseState ≠ .headers) :
    outerStep parseJson c = parseStep parseJson c := by
  unfold outerStep
  split
  · contradiction
  · rfl

/-- Each pass of the outer loop moves on to the next state. -/
theorem rank_outerStep {c c' : ReadSide} (h : outerStep parseJson c = .ok (.next c')) :
    c'.parseState.rank = c.parseState.rank + 1 := by
  by_cases hheaders : c.parseState = .headers
  · simp only [outerStep, hheaders] at h
    rw [hheaders, parseState_headerLoop h]
    rfl
  · rw [outerStep_of_ne parseJson hheaders] at h
    rcases parseStep_next_cases h with ⟨hstate, pos, base, -, -, rfl⟩ | ⟨hstate, -⟩ |
      ⟨hstate, -, base, -, rfl⟩
    · rw [hstate]
      rfl
    · exact absurd hstate hheaders
    · rw [hstate]
      rfl

theorem outerStep_decreases :
    Loop.Decreases (outerStep parseJson) fun c => 3 - c.parseState.rank := by
  intro c c' h
  have hnext := rank_outerStep parseJson h
  have hle := c'.parseState.rank_le
  show 3 - c'.parseState.rank < 3 - c.parseState.rank
  omega

/-- `parseHttpRequest` with its two loops. -/
def nestedParseHttpRequest (c : ReadSide) : Except Escape (Bool × ReadSide) :=
  Loop.eval (outerStep parseJson) (fun c => 3 - c.parseState.rank) (outerStep_decreases parseJson) c

/-- The header lines make the passes of the one loop that the parse is. -/
theorem parseStep_eq_headerStep {c : ReadSide} (hstate : c.parseState = .headers) :
    parseStep parseJson c = c.headerStep.map Loop.Pass.flatten := by
  cases hpos : c.readBuf.strstr crlf with
  | none =>
    simp only [parseStep, headerStep, hstate, hpos]
    rfl
  | some pos =>
    cases hline : HttpRequest.parseHeaders (c.readBuf.mem.take pos) c.httpBase with
    | error e =>
      simp only [parseStep, headerStep, hstate, hpos, hline]
      rfl
    | ok result =>
      obtain ⟨more, base⟩ := result
      cases more <;> simp only [parseStep, headerStep, hstate, hpos, hline] <;> rfl

theorem nestedParseHttpRequest_eq (c : ReadSide) :
    nestedParseHttpRequest parseJson c = parseHttpRequest parseJson c := by
  have hstay : ∀ s s' : ReadSide, s.parseState = .headers → headerStep s = .ok (.next s') →
      s'.parseState = .headers := fun s s' hstate hpass => (parseState_headerStep hpass).trans hstate
  have hheaders : ∀ s : ReadSide, s.parseState = .headers →
      outerStep parseJson s = s.headerLoop := by
    intro s hstate
    rw [outerStep, hstate]
  exact Loop.eval_nested (fun _ => parseStep_eq_headerStep parseJson) hstay hheaders
    (fun _ => outerStep_of_ne parseJson) c

end ReadSide

end ModularNetServer
