import ModularNetServer.Http.ReadSide

/-!
# The parser as a function of the received bytes

`LineParser` is what `parseHttpRequest` is for: the same state machine, but over the bytes received
and not yet consumed instead of the memory they lie in. It does not depend on how these bytes were
cut into chunks (`LineParser.parse_append`), and the parser of the code agrees with it in every call
whose search sees only received bytes (`ReadSide.parse_view`).
-/

namespace ModularNetServer

open Cxx

/-- The state of the parser over the received bytes. -/
structure LineParser where
  pending : Str
  parseState : ParseState
  httpBase : HttpBase

namespace LineParser

/-- More bytes arrive. -/
def append (p : LineParser) (bytes : Str) : LineParser := { p with pending := p.pending ++ bytes }

/-- The next line end within the received bytes. -/
def lineEnd (p : LineParser) : Option Nat := Scan.find ReadSide.crlf (Scan.upTo 0 p.pending)

/-- One state, or one header line. -/
def step (parseJson : Str → Option Json) (p : LineParser) :
    Except Escape (Loop.Pass LineParser (Bool × LineParser)) :=
  match p.parseState with
  | .requestLine =>
    match p.lineEnd with
    | none => .ok (.exit (false, p))
    | some pos =>
      match HttpRequest.parseRequestLine (p.pending.take pos) p.httpBase with
      | none => .ok (.exit (false, p))
      | some base => .ok (.next ⟨p.pending.drop (pos + 2), .headers, base⟩)
  | .headers =>
    match p.lineEnd with
    | none => .ok (.exit (false, p))
    | some pos =>
      match HttpRequest.parseHeaders (p.pending.take pos) p.httpBase with
      | .error e => .error e
      | .ok (true, base) => .ok (.next ⟨p.pending.drop (pos + 2), .headers, base⟩)
      | .ok (false, base) => .ok (.next ⟨p.pending.drop (pos + 2), .body, base⟩)
  | .body =>
    if (p.pending.length : Int) < p.httpBase.contentLength then .ok (.exit (false, p))
    else
      match HttpRequest.parseBody parseJson p.pending p.httpBase.contentLength p.httpBase with
      | .error e => .error e
      | .ok base => .ok (.next ⟨p.pending.drop p.httpBase.contentLength.toNat, .done, base⟩)
  | .done => .ok (.exit (true, p))

theorem lineEnd_le {p : LineParser} {pos : Nat} (h : p.lineEnd = some pos) :
    pos + 2 ≤ p.pending.length :=
  (Scan.find_some_le h).trans (Scan.upTo_length_le 0 _)

/-- The bytes and states still to come. -/
def measure (p : LineParser) : Nat := 4 * p.pending.length + (3 - p.parseState.rank)

theorem step_decreases (parseJson : Str → Option Json) : Loop.Decreases (step parseJson) measure := by
  intro p p' h
  unfold step at h
  unfold measure
  cases hs : p.parseState with
  | requestLine =>
    simp only [hs] at h
    split at h
    · cases h
    · rename_i pos hpos
      have hle := lineEnd_le hpos
      split at h
      · cases h
      · cases h
        simp only [ParseState.rank, List.length_drop]
        omega
  | headers =>
    simp only [hs] at h
    split at h
    · cases h
    · rename_i pos hpos
      have hle := lineEnd_le hpos
      split at h
      · cases h
      · cases h
        simp only [ParseState.rank, List.length_drop]
        omega
      · cases h
        simp only [ParseState.rank, List.length_drop]
        omega
  | body =>
    simp only [hs] at h
    split at h
    · cases h
    · split at h
      · cases h
      · cases h
        simp only [ParseState.rank, List.length_drop]
        omega
  | done => simp [hs] at h

/-- The parser over the received bytes. -/
def parse (parseJson : Str → Option Json) (p : LineParser) : Except Escape (Bool × LineParser) :=
  Loop.eval (step parseJson) measure (step_decreases parseJson) p

/-! ## Steps and more bytes -/

/-- What a line end leaves to read stays what it was when more bytes arrive. -/
theorem lineEnd_append {p : LineParser} {pos : Nat} (h : p.lineEnd = some pos) (bytes : Str) :
    (p.append bytes).lineEnd = some pos :=
  Scan.find_prefix h (Scan.upTo_append_prefix 0 _ _)

theorem parseBody_congr (parseJson : Str → Option Json) {buf buf' : Str} {len : Int}
    (h : buf.take len.toNat = buf'.take len.toNat) (base : HttpBase) :
    HttpRequest.parseBody parseJson buf len base = HttpRequest.parseBody parseJson buf' len base := by
  simp only [HttpRequest.parseBody, h]

/-- A pass that leaves the loop leaves the state as it was. -/
theorem step_exit {parseJson : Str → Option Json} {p p' : LineParser} {b : Bool}
    (h : step parseJson p = .ok (.exit (b, p'))) : p' = p := by
  unfold step at h
  cases hs : p.parseState with
  | requestLine =>
    simp only [hs] at h
    split at h
    · cases h; rfl
    · split at h <;> cases h
      rfl
  | headers =>
    simp only [hs] at h
    split at h
    · cases h; rfl
    · split at h <;> cases h
  | body =>
    simp only [hs] at h
    split at h
    · cases h; rfl
    · split at h <;> cases h
  | done =>
    simp only [hs] at h
    cases h
    rfl

/-- A pass that goes on does the same when more bytes have arrived. -/
theorem step_next_append {parseJson : Str → Option Json} {p p' : LineParser}
    (h : step parseJson p = .ok (.next p')) (bytes : Str) :
    step parseJson (p.append bytes) = .ok (.next (p'.append bytes)) := by
  unfold step at h ⊢
  cases hs : p.parseState with
  | requestLine =>
    simp only [hs] at h
    split at h
    · cases h
    · rename_i pos hpos
      have hle := lineEnd_le hpos
      have htake : (p.append bytes).pending.take pos = p.pending.take pos :=
        List.take_append_of_le_length (by omega)
      have hdrop : (p.append bytes).pending.drop (pos + 2) = p.pending.drop (pos + 2) ++ bytes :=
        List.drop_append_of_le_length hle
      split at h
      · cases h
      · rename_i base hbase
        cases h
        simp only [show (p.append bytes).parseState = p.parseState from rfl, hs,
          lineEnd_append hpos bytes, htake, hdrop, show (p.append bytes).httpBase = p.httpBase from rfl,
          hbase]
        rfl
  | headers =>
    simp only [hs] at h
    split at h
    · cases h
    · rename_i pos hpos
      have hle := lineEnd_le hpos
      have htake : (p.append bytes).pending.take pos = p.pending.take pos :=
        List.take_append_of_le_length (by omega)
      have hdrop : (p.append bytes).pending.drop (pos + 2) = p.pending.drop (pos + 2) ++ bytes :=
        List.drop_append_of_le_length hle
      simp only [show (p.append bytes).parseState = p.parseState from rfl, hs,
        lineEnd_append hpos bytes, htake, hdrop, show (p.append bytes).httpBase = p.httpBase from rfl]
      split at h
      · cases h
      · rename_i base hbase
        cases h
        rfl
      · rename_i base hbase
        cases h
        rfl
  | body =>
    simp only [hs] at h
    split at h
    · cases h
    · rename_i hlen
      have hle : p.httpBase.contentLength.toNat ≤ p.pending.length := by omega
      have htake : (p.append bytes).pending.take p.httpBase.contentLength.toNat =
          p.pending.take p.httpBase.contentLength.toNat := List.take_append_of_le_length hle
      have hdrop : (p.append bytes).pending.drop p.httpBase.contentLength.toNat =
          p.pending.drop p.httpBase.contentLength.toNat ++ bytes := List.drop_append_of_le_length hle
      have hlen' : ¬ ((p.append bytes).pending.length : Int) < p.httpBase.contentLength := by
        simp only [append, List.length_append]
        omega
      simp only [show (p.append bytes).parseState = p.parseState from rfl, hs,
        show (p.append bytes).httpBase = p.httpBase from rfl, hlen', if_false,
        parseBody_congr parseJson htake, hdrop]
      split at h
      · cases h
      · rename_i base hbase
        cases h
        rfl
  | done => simp [hs] at h

/-- So does a pass that ends in an exception. -/
theorem step_error_append {parseJson : Str → Option Json} {p : LineParser} {e : Escape}
    (h : step parseJson p = .error e) (bytes : Str) :
    step parseJson (p.append bytes) = .error e := by
  unfold step at h ⊢
  cases hs : p.parseState with
  | requestLine =>
    simp only [hs] at h
    split at h
    · cases h
    · split at h <;> cases h
  | headers =>
    simp only [hs] at h
    split at h
    · cases h
    · rename_i pos hpos
      have hle := lineEnd_le hpos
      have htake : (p.append bytes).pending.take pos = p.pending.take pos :=
        List.take_append_of_le_length (by omega)
      simp only [show (p.append bytes).parseState = p.parseState from rfl, hs,
        lineEnd_append hpos bytes, htake, show (p.append bytes).httpBase = p.httpBase from rfl]
      split at h
      · cases h; rfl
      · cases h
      · cases h
  | body =>
    simp only [hs] at h
    split at h
    · cases h
    · rename_i hlen
      have hle : p.httpBase.contentLength.toNat ≤ p.pending.length := by omega
      have htake : (p.append bytes).pending.take p.httpBase.contentLength.toNat =
          p.pending.take p.httpBase.contentLength.toNat := List.take_append_of_le_length hle
      have hlen' : ¬ ((p.append bytes).pending.length : Int) < p.httpBase.contentLength := by
        simp only [append, List.length_append]
        omega
      simp only [show (p.append bytes).parseState = p.parseState from rfl, hs,
        show (p.append bytes).httpBase = p.httpBase from rfl, hlen', if_false,
        parseBody_congr parseJson htake]
      split at h
      · cases h; rfl
      · cases h
  | done => simp [hs] at h

/-- Chunking independence: after a call that returned, the bytes that arrive later can just as well
    have been there before it. -/
theorem parse_append {parseJson : Str → Option Json} {p p' : LineParser} {b : Bool}
    (h : parse parseJson p = .ok (b, p')) (bytes : Str) :
    parse parseJson (p.append bytes) = parse parseJson (p'.append bytes) := by
  induction p using Loop.induct (step_decreases parseJson) with
  | h p ih =>
    cases hstep : step parseJson p with
    | error e =>
      rw [parse, Loop.eval_error hstep] at h
      cases h
    | ok pass =>
      cases pass with
      | next q =>
        rw [parse, Loop.eval_next hstep] at h
        rw [parse, Loop.eval_next (step_next_append hstep bytes)]
        exact ih q hstep h
      | exit r =>
        obtain ⟨b', q⟩ := r
        rw [parse, Loop.eval_exit hstep] at h
        cases h
        rw [step_exit hstep]

theorem parse_error_append {parseJson : Str → Option Json} {p : LineParser} {e : Escape}
    (h : parse parseJson p = .error e) (bytes : Str) :
    parse parseJson (p.append bytes) = .error e := by
  induction p using Loop.induct (step_decreases parseJson) with
  | h p ih =>
    cases hstep : step parseJson p with
    | error e' =>
      rw [parse, Loop.eval_error hstep] at h
      cases h
      exact Loop.eval_error (step_error_append hstep bytes)
    | ok pass =>
      cases pass with
      | next q =>
        rw [parse, Loop.eval_next hstep] at h
        rw [parse, Loop.eval_next (step_next_append hstep bytes)]
        exact ih q hstep h
      | exit r =>
        rw [parse, Loop.eval_exit hstep] at h
        cases h

/-- Parsing only consumes bytes. -/
theorem parse_pending_le {parseJson : Str → Option Json} {p p' : LineParser} {b : Bool}
    (h : parse parseJson p = .ok (b, p')) : p'.pending.length ≤ p.pending.length := by
  obtain ⟨q, hreach, hend⟩ := @Loop.eval_ends _ _ _ _ _ (step_decreases parseJson) p
  unfold parse at h
  rw [h] at hend
  obtain rfl := step_exit hend
  have hconsumes : ∀ s s' : LineParser, s.pending.length ≤ p.pending.length →
      step parseJson s = .ok (.next s') → s'.pending.length ≤ p.pending.length := by
    intro s s' hs hpass
    have hd := step_decreases parseJson s s' hpass
    unfold measure at hd
    have h3 : 3 - s.parseState.rank ≤ 3 := Nat.sub_le _ _
    omega
  exact hreach.invariant hconsumes le_rfl

end LineParser

/-! ## The parser of the code -/

namespace ReadSide

/-- What the read side holds, without the memory past the received bytes. -/
def view (c : ReadSide) : LineParser := ⟨c.readBuf.pending, c.parseState, c.httpBase⟩

/-- Where the parser is about to search for a line end, it finds the one it would find in the
    received bytes alone. -/
def SeesOnlyReceived (c : ReadSide) : Prop :=
  c.parseState = .requestLine ∨ c.parseState = .headers → c.readBuf.strstr crlf = c.view.lineEnd

theorem seesOnlyReceived_of_terminated {c : ReadSide} (h : c.readBuf.Terminated) :
    c.SeesOnlyReceived := by
  intro _
  unfold ReadBuffer.strstr view LineParser.lineEnd
  rw [h.visible]

/-- A line within the received bytes is read the same from the memory. -/
theorem take_pending {c : ReadSide} {pos : Nat} (h : c.view.lineEnd = some pos) :
    c.readBuf.mem.take pos = c.view.pending.take pos := by
  have hle : pos + 2 ≤ c.readBuf.pending.length := LineParser.lineEnd_le h
  rw [ReadBuffer.pending_length] at hle
  simp only [view, ReadBuffer.pending, List.take_take]
  congr 1
  omega

/-- Removing a line removes its bytes from the received ones. -/
theorem view_removeLine (c : ReadSide) (len : Nat) (s : ParseState) (base : HttpBase) :
    view ⟨c.readBuf.removeLine len, s, base⟩ = ⟨c.view.pending.drop len, s, base⟩ := by
  simp only [view, ReadBuffer.pending_removeLine]

/-- One pass of the parser and one step over the received bytes agree. -/
theorem parseStep_view (parseJson : Str → Option Json) (c : ReadSide) (h : c.SeesOnlyReceived) :
    Loop.PassRel (fun c p => c.view = p ∧ c.SeesOnlyReceived)
      (fun r p => r.1 = p.1 ∧ r.2.view = p.2)
      (parseStep parseJson c) (LineParser.step parseJson c.view) := by
  have hstate : c.view.parseState = c.parseState := rfl
  have hbase : c.view.httpBase = c.httpBase := rfl
  unfold parseStep LineParser.step
  rw [hstate, hbase]
  cases hs : c.parseState with
  | requestLine =>
    simp only [h (.inl hs)]
    cases hpos : c.view.lineEnd with
    | none => exact ⟨rfl, rfl⟩
    | some pos =>
      simp only [take_pending hpos]
      cases hline : HttpRequest.parseRequestLine (c.view.pending.take pos) c.httpBase with
      | none => exact ⟨rfl, rfl⟩
      | some base =>
        refine ⟨view_removeLine c (pos + 2) .headers base, ?_⟩
        exact seesOnlyReceived_of_terminated (c.readBuf.removeLine_terminated (by omega))
  | headers =>
    simp only [h (.inr hs)]
    cases hpos : c.view.lineEnd with
    | none => exact ⟨rfl, rfl⟩
    | some pos =>
      simp only [take_pending hpos]
      have hterm := c.readBuf.removeLine_terminated (show 0 < pos + 2 by omega)
      cases hline : HttpRequest.parseHeaders (c.view.pending.take pos) c.httpBase with
      | error e => rfl
      | ok r =>
        obtain ⟨more, base⟩ := r
        cases more with
        | true =>
          exact ⟨view_removeLine c (pos + 2) .headers base, seesOnlyReceived_of_terminated hterm⟩
        | false =>
          exact ⟨view_removeLine c (pos + 2) .body base, seesOnlyReceived_of_terminated hterm⟩
  | body =>
    have hlen : c.view.pending.length = c.readBuf.idx := c.readBuf.pending_length
    simp only [hlen]
    split_ifs with hwait
    · exact ⟨rfl, rfl⟩
    · have htake : c.readBuf.mem.take c.httpBase.contentLength.toNat =
          c.view.pending.take c.httpBase.contentLength.toNat := by
        simp only [view, ReadBuffer.pending, List.take_take]
        congr 1
        omega
      simp only [LineParser.parseBody_congr parseJson htake]
      cases hb : HttpRequest.parseBody parseJson c.view.pending c.httpBase.contentLength
          c.httpBase with
      | error e => rfl
      | ok base =>
        refine ⟨view_removeLine c _ .done base, ?_⟩
        intro hd
        rcases hd with hd | hd <;> cases hd
  | done => exact ⟨rfl, rfl⟩

/-- The parser of the code is the parser over the received bytes, if its first search sees only
    those. -/
theorem parse_view (parseJson : Str → Option Json) (c : ReadSide) (h : c.SeesOnlyReceived) :
    Loop.ResultRel (fun r p => r.1 = p.1 ∧ r.2.view = p.2)
      (parseHttpRequest parseJson c) (LineParser.parse parseJson c.view) :=
  Loop.eval_rel (R := fun c p => c.view = p ∧ c.SeesOnlyReceived)
    (fun c _ hcp => hcp.1 ▸ parseStep_view parseJson c hcp.2) ⟨rfl, h⟩

end ReadSide

end ModularNetServer
