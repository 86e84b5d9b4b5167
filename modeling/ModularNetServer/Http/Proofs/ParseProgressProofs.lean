import ModularNetServer.Http.ParseLoops
import ModularNetServer.Http.Proofs.BufferUseProofs

/-!
# The parsing loops end

A pass over a header line removes the line from the C string at the start of the buffer, whether the line was
received or is left over from an earlier request: `removeLine` either empties that string, or moves the
received bytes after the line to the front and puts a NUL behind them. All other passes go on to the next
state. So the loops end, with an answer or with an exception of `parseHeaders` or `parseBody`.
-/

namespace ModularNetServer

open Cxx

namespace ReadSide

variable {parseJson : Str → Option Json} {c c' : ReadSide}

/-- `parseHeaders` throws on the line that the search has found, or `parseBody` throws. -/
def ParserThrows (parseJson : Str → Option Json) (c : ReadSide) (e : Escape) : Prop :=
  (c.parseState = .headers ∧ ∃ pos, c.readBuf.strstr crlf = some pos ∧
    HttpRequest.parseHeaders (c.readBuf.mem.take pos) c.httpBase = .error e) ∨
  (c.parseState = .body ∧ c.httpBase.contentLength ≤ c.readBuf.idx ∧
    HttpRequest.parseBody parseJson c.readBuf.mem c.httpBase.contentLength c.httpBase = .error e)

/-! ## One pass -/

theorem parserThrows_of_error {e : Escape} (h : parseStep parseJson c = .error e) :
    c.ParserThrows parseJson e := by
  unfold parseStep at h
  split at h
  · split at h
    · cases h
    · split at h <;> cases h
  · rename_i hstate
    split at h
    · cases h
    · rename_i pos hpos
      split at h
      · rename_i e' herror
        cases h
        exact .inl ⟨hstate, pos, hpos, herror⟩
      · cases h
      · cases h
  · rename_i hstate
    dsimp only at h
    split at h
    · cases h
    · rename_i hreceived
      split at h
      · rename_i e' herror
        cases h
        exact .inr ⟨hstate, by omega, herror⟩
      · cases h
  · cases h

/-- No pass goes back to an earlier state. -/
theorem rank_parseStep (h : parseStep parseJson c = .ok (.next c')) :
    c.parseState.rank ≤ c'.parseState.rank := by
  rcases parseStep_next_cases h with ⟨hstate, pos, base, -, -, rfl⟩ |
    ⟨hstate, pos, more, base, -, -, rfl⟩ | ⟨hstate, -, base, -, rfl⟩
  · simp [hstate, ParseState.rank]
  · cases more <;> simp [hstate, ParseState.rank]
  · simp [hstate, ParseState.rank]

/-- A pass over a header line shortens the C string at the start of the buffer. -/
theorem cString_parseStep_lt (hstate : c.parseState = .headers)
    (h : parseStep parseJson c = .ok (.next c')) :
    c'.readBuf.cString.length < c.readBuf.cString.length := by
  rcases parseStep_next_cases h with ⟨hother, -⟩ | ⟨-, pos, more, base, hpos, -, rfl⟩ | ⟨hother, -⟩
  · simp [hstate] at hother
  · exact ReadBuffer.cString_removeLine_lt hpos
  · simp [hstate] at hother

/-- A search ends within the array. -/
def SearchesText (c : ReadSide) : Prop := c.Searches → 0 ∈ c.readBuf.mem

/-- Where the next pass searches, the pass before it has removed a line. -/
theorem SearchesText.parseStep (h : parseStep parseJson c = .ok (.next c')) : c'.SearchesText := by
  have hremoved : ∀ (b : ReadBuffer) (pos : Nat), 0 ∈ (b.removeLine (pos + 2)).mem :=
    fun b pos => List.mem_of_getElem? (b.removeLine_terminated (by omega))
  rcases parseStep_next_cases h with ⟨-, pos, base, -, -, rfl⟩ | ⟨-, pos, more, base, -, -, rfl⟩ |
    ⟨-, -, base, -, rfl⟩
  · exact fun _ => hremoved _ _
  · exact fun _ => hremoved _ _
  · simp [SearchesText, Searches]

/-! ## A parse -/

/-- The state that a parse ends in is not before the state it began in. -/
theorem rank_parseHttpRequest {done : Bool} (h : c.parseHttpRequest parseJson = .ok (done, c')) :
    c.parseState.rank ≤ c'.parseState.rank := by
  obtain ⟨hreach, -⟩ := parseHttpRequest_ok h
  have hkept : ∀ s s' : ReadSide, c.parseState.rank ≤ s.parseState.rank →
      ReadSide.parseStep parseJson s = .ok (.next s') → c.parseState.rank ≤ s'.parseState.rank :=
    fun s s' hs hpass => hs.trans (rank_parseStep hpass)
  exact hreach.invariant hkept le_rfl

/-- A parse that ends with an exception ends with one of the parsers', in a state that it has come to. -/
theorem parserThrows_of_parseHttpRequest {e : Escape} (h : c.parseHttpRequest parseJson = .error e) :
    ∃ d, Loop.Reaches (parseStep parseJson) c d ∧ d.ParserThrows parseJson e := by
  obtain ⟨d, hreach, hend⟩ := @Loop.eval_ends _ _ _ _ _ (parseStep_decreases parseJson) c
  unfold parseHttpRequest at h
  rw [h] at hend
  exact ⟨d, hreach, parserThrows_of_error hend⟩

/-- The two loops end, whatever the buffer contains. Every search that is made on the way is made in a buffer
    with a NUL, every loop over header lines ends, every line that such a loop finds is removed from the C
    string at the start of the buffer, and no pass goes back to an earlier state. A parse that does not
    return ends with an exception of `parseHeaders` or `parseBody`. -/
theorem parseHttpRequest_progress (parseJson : Str → Option Json) (c : ReadSide)
    (hnul : 0 ∈ c.readBuf.mem) :
    (∃ n, Loop.run (outerStep parseJson) n c = some (c.parseHttpRequest parseJson)) ∧
    (∀ d, Loop.Reaches (parseStep parseJson) c d →
      (d.Searches → 0 ∈ d.readBuf.mem) ∧
      (∃ n, Loop.run headerStep n d = some d.headerLoop) ∧
      (∀ pos, d.readBuf.strstr crlf = some pos →
        (d.readBuf.removeLine (pos + 2)).cString.length < d.readBuf.cString.length) ∧
      ∀ d', parseStep parseJson d = .ok (.next d') →
        d.parseState.rank ≤ d'.parseState.rank ∧
        (d.parseState = .headers → d'.readBuf.cString.length < d.readBuf.cString.length)) ∧
    match c.parseHttpRequest parseJson with
    | .ok (_, c') => c.parseState.rank ≤ c'.parseState.rank
    | .error e => ∃ d, Loop.Reaches (parseStep parseJson) c d ∧ d.ParserThrows parseJson e := by
  refine ⟨?_, fun d hreach => ⟨?_, ⟨_, Loop.run_eval d⟩, ?_, ?_⟩, ?_⟩
  · rw [← nestedParseHttpRequest_eq]
    exact ⟨_, Loop.run_eval c⟩
  · have hstart : c.SearchesText := fun _ => hnul
    exact hreach.invariant (fun _ _ _ hpass => SearchesText.parseStep hpass) hstart
  · exact fun pos hpos => ReadBuffer.cString_removeLine_lt hpos
  · exact fun d' hpass => ⟨rank_parseStep hpass, fun hstate => cString_parseStep_lt hstate hpass⟩
  · split
    · rename_i done c' hreturns
      exact rank_parseHttpRequest hreturns
    · rename_i e hthrows
      exact parserThrows_of_parseHttpRequest hthrows

/-- Two bytes have been received; the rest of the line, and a header that does not parse, are left over. -/
def staleSide : ReadSide where
  readBuf :=
    { mem := str "GET /x HTTP/1.1\r\nContent-Length: many\r\n" ++ List.replicate 4057 0
      idx := 2
      mem_length := by rw [List.length_append, List.length_replicate]; decide
      idx_le := by decide }
  parseState := .requestLine
  httpBase := HttpBase.init (str "10.0.0.1")

theorem parseHttpRequest_progress_staleSide :
    ∃ n, Loop.run (outerStep fun _ => none) n staleSide = some (staleSide.parseHttpRequest fun _ => none) := by
  have hnul : 0 ∈ staleSide.readBuf.mem :=
    List.mem_append_right _ (List.mem_replicate.mpr ⟨by decide, rfl⟩)
  exact (parseHttpRequest_progress (fun _ => none) staleSide hnul).1

end ReadSide

end ModularNetServer
