import ModularNetServer.Http.RawRequest

/-!
# How a request may be cut into chunks

`parseHttpRequest` is called after every `recv`. `recv` does not terminate what it delivers, so a
search can run on into bytes of lines removed earlier. A run in which no search does (`Clean`)
parses the bytes received so far as if they had come in one chunk, and only such a run does.
-/

namespace ModularNetServer

open Cxx

namespace ReadSide

variable {parseJson : Str → Option Json}

/-- In every call of the run the search for a line end sees received bytes only. -/
def Clean (parseJson : Str → Option Json) (c : ReadSide) (chunks : List Str) : Prop :=
  ∀ xs x ys, chunks = xs ++ x :: ys → ∀ b c', feed parseJson c xs = .ok (b, c') →
    (c'.receive x).SeesOnlyReceived

/-- Every chunk of the run fits the room that is left in the buffer. -/
def Fits (parseJson : Str → Option Json) (c : ReadSide) (chunks : List Str) : Prop :=
  ∀ xs x ys, chunks = xs ++ x :: ys → ∀ b c', feed parseJson c xs = .ok (b, c') →
    c'.readBuf.idx + x.length ≤ readBufferSize

/-- Two runs that end the same way: the same exception, or the same answer with the same request
    parsed and the same bytes left. -/
def SameOutcome (r r' : Except Escape (Bool × ReadSide)) : Prop :=
  Loop.ResultRel (fun a b => a.1 = b.1 ∧ a.2.view = b.2.view) r r'

/-! ## Runs -/

theorem flatten_singleton (x : Str) : [x].flatten = x := by simp

/-- The last call of a run. -/
theorem feed_concat (c : ReadSide) (xs : List Str) (x : Str) :
    feed parseJson c (xs ++ [x]) =
      match feed parseJson c xs with
      | .error e => .error e
      | .ok (_, c') => parseHttpRequest parseJson (c'.receive x) := by
  induction xs generalizing c with
  | nil => rfl
  | cons y ys ih =>
    cases ys with
    | nil => rfl
    | cons z zs =>
      simp only [List.cons_append, feed]
      split
      · rfl
      · exact ih _

theorem Clean.of_prefix {c : ReadSide} {xs ys : List Str} (h : Clean parseJson c (xs ++ ys)) :
    Clean parseJson c xs := by
  intro as a bs hsplit
  exact h as a (bs ++ ys) (by rw [hsplit]; simp)

theorem Fits.of_prefix {c : ReadSide} {xs ys : List Str} (h : Fits parseJson c (xs ++ ys)) :
    Fits parseJson c xs := by
  intro as a bs hsplit
  exact h as a (bs ++ ys) (by rw [hsplit]; simp)

/-- A `recv` into a buffer with room appends to the bytes the parser has. -/
theorem view_receive {c : ReadSide} {x : Str} (h : c.readBuf.idx + x.length ≤ readBufferSize) :
    (c.receive x).view = c.view.append x := by
  simp only [view, receive, LineParser.append, ReadBuffer.pending_receive_of_le h]

/-! ## Before the first line is removed -/

/-- Nothing but NULs behind the received bytes. -/
def ZeroTail (c : ReadSide) : Prop := ∀ b ∈ c.readBuf.mem.drop c.readBuf.idx, b = 0

theorem init_zeroTail (ip : Str) : (init ip).ZeroTail := by
  intro b hb
  exact List.eq_of_mem_replicate (List.mem_of_mem_drop hb)

theorem ZeroTail.receive {c : ReadSide} (h : c.ZeroTail) (x : Str) : (c.receive x).ZeroTail := by
  intro b hb
  have hlen : (c.readBuf.mem.take c.readBuf.idx ++
      x.take (readBufferSize - c.readBuf.idx)).length =
        c.readBuf.idx + (x.take (readBufferSize - c.readBuf.idx)).length := by
    rw [List.length_append, show (c.readBuf.mem.take c.readBuf.idx).length = c.readBuf.idx from
      c.readBuf.pending_length]
  have hdrop : (c.receive x).readBuf.mem.drop (c.receive x).readBuf.idx =
      c.readBuf.mem.drop (c.readBuf.idx + (x.take (readBufferSize - c.readBuf.idx)).length) := by
    simp only [ReadSide.receive, ReadBuffer.receive]
    exact List.drop_left' hlen
  rw [hdrop, ← List.drop_drop] at hb
  exact h b (List.mem_of_mem_drop hb)

/-- With nothing but NULs behind them, the received bytes are all a search sees. -/
theorem ZeroTail.seesOnlyReceived {c : ReadSide} (h : c.ZeroTail) : c.SeesOnlyReceived := by
  intro _
  have hmem : c.readBuf.mem = c.readBuf.pending ++ c.readBuf.mem.drop c.readBuf.idx :=
    (List.take_append_drop _ _).symm
  unfold ReadBuffer.strstr LineParser.lineEnd
  rw [hmem]
  cases hd : c.readBuf.mem.drop c.readBuf.idx with
  | nil => rw [List.append_nil]; rfl
  | cons b rest =>
    have hb : b = 0 := h b (by rw [hd]; exact List.mem_cons_self)
    rw [hb, Scan.upTo_append_terminator]
    rfl

/-- A pass that goes on has left the request line behind and taken bytes away. -/
theorem parseStep_next {c c' : ReadSide} (h : parseStep parseJson c = .ok (.next c')) :
    c'.parseState ≠ .requestLine ∧ c'.readBuf.idx ≤ c.readBuf.idx := by
  rcases parseStep_next_cases h with ⟨-, pos, base, -, -, rfl⟩ | ⟨-, pos, more, base, -, -, rfl⟩ |
    ⟨-, -, base, -, rfl⟩
  · exact ⟨by simp, ReadBuffer.removeLine_idx_le _ _⟩
  · exact ⟨by cases more <;> simp, ReadBuffer.removeLine_idx_le _ _⟩
  · exact ⟨by simp, ReadBuffer.removeLine_idx_le _ _⟩

/-- A call takes bytes away. -/
theorem parse_idx_le {c c' : ReadSide} {b : Bool}
    (h : parseHttpRequest parseJson c = .ok (b, c')) : c'.readBuf.idx ≤ c.readBuf.idx := by
  obtain ⟨hreach, -⟩ := parseHttpRequest_ok h
  have hkept : ∀ s s' : ReadSide, s.readBuf.idx ≤ c.readBuf.idx →
      parseStep parseJson s = .ok (.next s') → s'.readBuf.idx ≤ c.readBuf.idx :=
    fun s s' hs hpass => (parseStep_next hpass).2.trans hs
  exact hreach.invariant hkept le_rfl

/-- No more bytes are pending than have been received. -/
theorem feed_idx_le {c c' : ReadSide} {chunks : List Str} {b : Bool}
    (h : feed parseJson c chunks = .ok (b, c')) :
    c'.readBuf.idx ≤ c.readBuf.idx + chunks.flatten.length := by
  induction chunks using List.reverseRecOn generalizing b c' with
  | nil =>
    cases h
    exact Nat.le_add_right _ _
  | append_singleton xs x ih =>
    rw [feed_concat] at h
    cases hxs : feed parseJson c xs with
    | error e => rw [hxs] at h; cases h
    | ok r =>
      rw [hxs] at h
      have h1 := parse_idx_le h
      have h2 := ih hxs
      have h3 := r.2.readBuf.receive_idx_le x
      have h4 : (r.2.receive x).readBuf = r.2.readBuf.receive x := rfl
      rw [h4] at h1
      simp only [List.flatten_append, List.length_append, flatten_singleton]
      omega

/-- A run of no more bytes than the buffer holds fits it. -/
theorem fits_of_length {ip : Str} {chunks : List Str}
    (h : chunks.flatten.length ≤ readBufferSize) : Fits parseJson (init ip) chunks := by
  intro xs x ys hsplit b c' hxs
  have h1 := feed_idx_le hxs
  have h2 : (init ip).readBuf.idx = 0 := rfl
  have h3 : chunks.flatten = xs.flatten ++ (x ++ ys.flatten) := by rw [hsplit]; simp
  rw [h3] at h
  simp only [List.length_append] at h
  omega

/-- A call that ends before the request line is complete changes nothing. -/
theorem parse_eq_of_requestLine {c c' : ReadSide} {b : Bool}
    (h : parseHttpRequest parseJson c = .ok (b, c')) (hs : c'.parseState = .requestLine) :
    c' = c := by
  obtain ⟨hreach, -⟩ := parseHttpRequest_ok h
  -- a last pass would have left the request line behind
  rcases hreach.cases_tail with heq | ⟨d, -, hpass⟩
  · exact heq
  · exact absurd hs (parseStep_next hpass).1

/-- Until the request line is complete there are only NULs behind the received bytes. -/
theorem feed_zeroTail {ip : Str} {chunks : List Str} {b : Bool} {c : ReadSide}
    (h : feed parseJson (init ip) chunks = .ok (b, c)) (hs : c.parseState = .requestLine) :
    c.ZeroTail := by
  induction chunks using List.reverseRecOn generalizing b c with
  | nil =>
    cases h
    exact init_zeroTail ip
  | append_singleton xs x ih =>
    rw [feed_concat] at h
    cases hxs : feed parseJson (init ip) xs with
    | error e => rw [hxs] at h; cases h
    | ok r =>
      obtain ⟨b', c'⟩ := r
      rw [hxs] at h
      have hc := parse_eq_of_requestLine h hs
      have hs' : c'.parseState = .requestLine := by
        have : (c'.receive x).parseState = .requestLine := by rw [← hc]; exact hs
        exact this
      rw [hc]
      exact (ih hxs hs').receive x

/-! ## Clean runs -/

theorem clean_singleton (ip x : Str) : Clean parseJson (init ip) [x] := by
  intro xs y ys hsplit b c' h
  cases xs with
  | nil =>
    cases h
    exact ((init_zeroTail ip).receive y).seesOnlyReceived
  | cons z zs => simp at hsplit

/-- A clean run is a parse of all the bytes received, from a newly initialised connection. -/
theorem feed_view {ip : Str} {chunks : List Str} (h : Clean parseJson (init ip) chunks)
    (hfit : Fits parseJson (init ip) chunks) :
    Loop.ResultRel (fun r p => r.1 = p.1 ∧ r.2.view = p.2) (feed parseJson (init ip) chunks)
      (LineParser.parse parseJson ((init ip).view.append chunks.flatten)) := by
  induction chunks using List.reverseRecOn with
  | nil =>
    rw [LineParser.parse, Loop.eval_exit (r := (false, (init ip).view)) rfl]
    exact ⟨rfl, rfl⟩
  | append_singleton xs x ih =>
    have ih := ih h.of_prefix hfit.of_prefix
    have happ : (init ip).view.append (xs ++ [x]).flatten =
        ((init ip).view.append xs.flatten).append x := by
      simp only [LineParser.append, List.flatten_append, flatten_singleton, List.append_assoc]
    rw [feed_concat, happ]
    cases hr : feed parseJson (init ip) xs with
    | error e =>
      cases hp : LineParser.parse parseJson ((init ip).view.append xs.flatten) with
      | error e' =>
        rw [hr, hp] at ih
        rw [LineParser.parse_error_append hp]
        exact ih
      | ok p => rw [hr, hp] at ih; exact ih.elim
    | ok r =>
      obtain ⟨b, c⟩ := r
      cases hp : LineParser.parse parseJson ((init ip).view.append xs.flatten) with
      | error e' => rw [hr, hp] at ih; exact ih.elim
      | ok p =>
        obtain ⟨b', p⟩ := p
        rw [hr, hp] at ih
        obtain ⟨rfl, rfl⟩ : b = b' ∧ c.view = p := ih
        rw [LineParser.parse_append hp, ← view_receive (hfit xs x [] rfl b c hr)]
        exact parse_view parseJson _ (h xs x [] rfl b c hr)

theorem sameOutcome_of_view {r r' : Except Escape (Bool × ReadSide)}
    {p : Except Escape (Bool × LineParser)}
    (h : Loop.ResultRel (fun r p => r.1 = p.1 ∧ r.2.view = p.2) r p)
    (h' : Loop.ResultRel (fun r p => r.1 = p.1 ∧ r.2.view = p.2) r' p) : SameOutcome r r' := by
  cases p with
  | error e =>
    cases r <;> cases r' <;> simp_all [Loop.ResultRel, SameOutcome]
  | ok p =>
    cases r with
    | error e => exact h.elim
    | ok r =>
      cases r' with
      | error e => exact h'.elim
      | ok r' => exact ⟨h.1.trans h'.1.symm, h.2.trans h'.2.symm⟩

/-! ## Runs that are not clean -/

/-- A search that goes past the received bytes finds a line end beyond all of them. -/
theorem overrun {c : ReadSide} (h : ¬ c.SeesOnlyReceived) :
    (c.parseState = .requestLine ∨ c.parseState = .headers) ∧ c.view.lineEnd = none ∧
      ∃ pos, c.readBuf.strstr crlf = some pos ∧ c.readBuf.idx < pos + 2 := by
  unfold SeesOnlyReceived at h
  push Not at h
  obtain ⟨hs, hne⟩ := h
  have hmem : c.readBuf.mem = c.view.pending ++ c.readBuf.mem.drop c.readBuf.idx :=
    (List.take_append_drop _ _).symm
  have hidx : c.view.pending.length = c.readBuf.idx := c.readBuf.pending_length
  have hpre : Scan.upTo 0 c.view.pending <+: Scan.upTo 0 c.readBuf.mem := by
    rw [hmem]
    exact Scan.upTo_append_prefix 0 _ _
  have hnone : c.view.lineEnd = none := by
    cases hl : c.view.lineEnd with
    | none => rfl
    | some n => exact absurd ((Scan.find_prefix hl hpre).trans hl.symm) hne
  refine ⟨hs, hnone, ?_⟩
  cases hp : c.readBuf.strstr crlf with
  | none => exact absurd (hp.trans hnone.symm) hne
  | some pos =>
    refine ⟨pos, rfl, ?_⟩
    by_contra hle
    have hcases := Scan.upTo_append_cases 0 c.view.pending (c.readBuf.mem.drop c.readBuf.idx)
    rw [← hmem] at hcases
    have hin : Scan.find crlf (Scan.upTo 0 c.view.pending) = some pos := by
      rcases hcases with heq | hall
      · rw [← heq]
        exact hp
      · refine Scan.find_of_prefix hp hpre ?_
        rw [hall, hidx]
        exact Nat.le_of_not_lt hle
    exact absurd (hin.symm.trans hnone) (by simp)

/-- A call that overruns the received bytes among the header lines throws, or loses them all. -/
theorem parse_overrun {c c' : ReadSide} {b : Bool} (hs : c.parseState = .headers)
    (ho : ¬ c.SeesOnlyReceived) (h : parseHttpRequest parseJson c = .ok (b, c')) :
    c'.view.pending = [] := by
  obtain ⟨-, -, pos, hpos, hlt⟩ := overrun ho
  have hlost : ∀ s base, parseHttpRequest parseJson ⟨c.readBuf.removeLine (pos + 2), s, base⟩ =
      .ok (b, c') → c'.view.pending = [] := by
    intro s base hparse
    have hterm := c.readBuf.removeLine_terminated (show 0 < pos + 2 by omega)
    have hv := parse_view parseJson ⟨c.readBuf.removeLine (pos + 2), s, base⟩
      (seesOnlyReceived_of_terminated hterm)
    have hnil : c.view.pending.drop (pos + 2) = [] := by
      refine List.drop_eq_nil_of_le ?_
      have : c.view.pending.length = c.readBuf.idx := c.readBuf.pending_length
      omega
    rw [hparse, view_removeLine, hnil] at hv
    cases hp : LineParser.parse parseJson ⟨[], s, base⟩ with
    | error e => rw [hp] at hv; exact hv.elim
    | ok p =>
      obtain ⟨b', p⟩ := p
      rw [hp] at hv
      have hle := LineParser.parse_pending_le hp
      rw [show c'.view = p from hv.2]
      exact List.eq_nil_of_length_eq_zero (by simpa using hle)
  cases hstep : parseStep parseJson c with
  | error e =>
    rw [parseHttpRequest, Loop.eval_error hstep] at h
    cases h
  | ok pass =>
    cases pass with
    | exit r =>
      simp only [parseStep, hs, hpos] at hstep
      split at hstep <;> cases hstep
    | next d =>
      rw [parseHttpRequest, Loop.eval_next hstep] at h
      simp only [parseStep, hs, hpos] at hstep
      split at hstep
      · cases hstep
      · cases hstep
        exact hlost _ _ h
      · cases hstep
        exact hlost _ _ h

/-- A run whose outcome does not depend on the chunking at any point is clean. -/
theorem clean_of_sameOutcome {ip : Str} {chunks : List Str} (hne : ∀ x ∈ chunks, x ≠ [])
    (hlen : chunks.flatten.length ≤ readBufferSize)
    (h : ∀ pre, pre <+: chunks →
      SameOutcome (feed parseJson (init ip) pre) (feed parseJson (init ip) [pre.flatten])) :
    Clean parseJson (init ip) chunks := by
  intro xs x ys hsplit b c' hxs
  by_contra hsee
  have hx : x ≠ [] := hne x (by rw [hsplit]; simp)
  have hlen' : xs.flatten.length + x.length ≤ readBufferSize := by
    have : chunks.flatten = xs.flatten ++ (x ++ ys.flatten) := by rw [hsplit]; simp
    rw [this] at hlen
    simp only [List.length_append] at hlen
    omega
  -- the state before the call, as a parse of what was received
  have h1 := h xs ⟨x :: ys, hsplit.symm⟩
  have hv1 := feed_view (@clean_singleton parseJson ip xs.flatten)
    (fits_of_length (by rw [flatten_singleton]; omega))
  rw [flatten_singleton] at hv1
  rw [hxs] at h1
  cases hr1 : feed parseJson (init ip) [xs.flatten] with
  | error e => rw [hr1] at h1; exact h1.elim
  | ok r1 =>
    rw [hr1] at h1 hv1
    cases hp1 : LineParser.parse parseJson ((init ip).view.append xs.flatten) with
    | error e => rw [hp1] at hv1; exact hv1.elim
    | ok p1 =>
      rw [hp1] at hv1
      have hview : c'.view = p1.2 := h1.2.trans hv1.2
      have hle := @LineParser.parse_pending_le _ _ p1.2 p1.1 hp1
      have hidx : c'.view.pending.length = c'.readBuf.idx := c'.readBuf.pending_length
      have happlen : ((init ip).view.append xs.flatten).pending.length = xs.flatten.length := rfl
      have hrec : (c'.receive x).view = c'.view.append x :=
        view_receive (by rw [hview] at hidx; omega)
      -- the search overruns among the header lines
      obtain ⟨hs, hend, -⟩ := overrun hsee
      have hheaders : c'.parseState = .headers := by
        rcases hs with hs | hs
        · exact absurd ((feed_zeroTail hxs hs).receive x).seesOnlyReceived hsee
        · exact hs
      -- the parser over the received bytes waits for the rest of the line
      have hwait : LineParser.parse parseJson ((init ip).view.append (xs ++ [x]).flatten) =
          .ok (false, c'.view.append x) := by
        have happ : (init ip).view.append (xs ++ [x]).flatten =
            ((init ip).view.append xs.flatten).append x := by
          simp [LineParser.append]
        rw [happ, @LineParser.parse_append _ _ p1.2 p1.1 hp1, ← hview]
        rw [hrec] at hend
        refine Loop.eval_exit ?_
        simp only [LineParser.step, show (c'.view.append x).parseState = .headers from hheaders,
          hend]
      -- the parser of the code does not
      have h2 := h (xs ++ [x]) ⟨ys, by rw [hsplit]; simp⟩
      have hv2 := feed_view (@clean_singleton parseJson ip (xs ++ [x]).flatten)
        (fits_of_length (by
          rw [flatten_singleton, List.flatten_append, flatten_singleton, List.length_append]
          omega))
      rw [flatten_singleton, hwait] at hv2
      rw [feed_concat, hxs] at h2
      simp only at h2
      cases hr2 : feed parseJson (init ip) [(xs ++ [x]).flatten] with
      | error e => rw [hr2] at hv2; exact hv2.elim
      | ok r2 =>
        rw [hr2] at h2 hv2
        cases hp : parseHttpRequest parseJson (c'.receive x) with
        | error e => rw [hp] at h2; exact h2.elim
        | ok r =>
          rw [hp] at h2
          have hnil := @parse_overrun _ (c'.receive x) r.2 r.1 hheaders hsee hp
          rw [h2.2.trans hv2.2] at hnil
          simp [LineParser.append, hx] at hnil

/-- The exact condition under which the way a request is cut into chunks does not matter: no search
    for a line end runs past the received bytes. -/
theorem chunking_independent_iff_clean (parseJson : Str → Option Json) (ip : Str)
    (r : RawRequest) (hr : r.WellFormed) (hlen : r.bytes.length ≤ 4095) (chunks : List Str)
    (hne : ∀ x ∈ chunks, x ≠ []) (hflat : chunks.flatten = r.bytes) :
    (Clean parseJson (init ip) chunks →
      ∃ c c', feed parseJson (init ip) chunks = .ok (true, c) ∧
        feed parseJson (init ip) [r.bytes] = .ok (true, c') ∧ c.httpBase = c'.httpBase ∧
        c.view = c'.view) ∧
    (Clean parseJson (init ip) chunks ↔
      ∀ pre, pre <+: chunks →
        SameOutcome (feed parseJson (init ip) pre) (feed parseJson (init ip) [pre.flatten])) := by
  have hsize : readBufferSize = 4096 := rfl
  refine ⟨fun hclean => ?_, fun hclean pre hpre => ?_,
    fun h => clean_of_sameOutcome hne (by rw [hflat]; omega) h⟩
  · have hv := feed_view hclean (fits_of_length (by rw [hflat]; omega))
    have hv' := feed_view (@clean_singleton parseJson ip r.bytes)
      (fits_of_length (by rw [flatten_singleton]; omega))
    rw [hflat] at hv
    rw [flatten_singleton] at hv'
    have hbytes : (init ip).view.append r.bytes =
        ⟨r.head ++ r.body, .requestLine, HttpBase.init ip⟩ := rfl
    obtain ⟨base', -, hbody⟩ := @LineParser.parse_body parseJson r.body _ _
      (@RawRequest.headBase_contentLength _ hr (HttpBase.init ip) rfl) le_rfl
    rw [hbytes, LineParser.parse_head hr, hbody] at hv hv'
    cases hf : feed parseJson (init ip) chunks with
    | error e => rw [hf] at hv; exact hv.elim
    | ok s =>
      cases hf' : feed parseJson (init ip) [r.bytes] with
      | error e => rw [hf'] at hv'; exact hv'.elim
      | ok s' =>
        rw [hf] at hv
        rw [hf'] at hv'
        obtain ⟨b, c⟩ := s
        obtain ⟨b', c'⟩ := s'
        obtain ⟨rfl, hc⟩ : b = true ∧ c.view = _ := hv
        obtain ⟨rfl, hc'⟩ : b' = true ∧ c'.view = _ := hv'
        have hcc := hc.trans hc'.symm
        exact ⟨c, c', rfl, rfl, congrArg LineParser.httpBase hcc, hcc⟩
  · obtain ⟨post, rfl⟩ := hpre
    have hle : pre.flatten.length ≤ readBufferSize := by
      rw [List.flatten_append] at hflat
      have := congrArg List.length hflat
      rw [List.length_append] at this
      omega
    refine sameOutcome_of_view (feed_view hclean.of_prefix (fits_of_length hle)) ?_
    have hv := feed_view (@clean_singleton parseJson ip pre.flatten)
      (fits_of_length (by rw [flatten_singleton]; exact hle))
    rwa [flatten_singleton] at hv

/-! ## A request that is parsed differently in three chunks -/

/-- A request whose third line arrives in pieces in the run below. -/
def hostRequest : RawRequest where
  method := str "GET"
  url := str "/"
  version := str "HTTP/1.1"
  lines := [str "Host: a", str "Connection: b", str "Content-Length: 0"]
  body := []

theorem hostRequest_wellFormed : hostRequest.WellFormed where
  method := ⟨by decide, by decide, by decide⟩
  url := ⟨by decide, by decide, by decide⟩
  version := ⟨by decide, by decide, by decide⟩
  lines := by
    have h : ∀ line ∈ hostRequest.lines,
        line ≠ [] ∧ Scan.find crlf line = none ∧ ∀ b ∈ line, b ≠ 0 := by decide
    exact fun line hl => ⟨(h line hl).1, (h line hl).2.1, (h line hl).2.2⟩
  announces := by
    have h : ∀ line ∈ hostRequest.lines, ∀ kv ∈ HttpRequest.splitHeader line,
        kv.1 = str "Content-Length" → kv.2 = decimal 0 := by decide
    intro line hl key value hs hk
    rw [show value = decimal 0 from h line hl (key, value) hs hk]
    exact stoi_decimal (n := 0) (by decide)
  contentLength := .inl rfl

/-- The request in one chunk and in a chunk that ends after `GET / HTTP/1.1\r\nHost: a\r\nCon`,
    one of the next byte, and the rest. -/
def hostChunks : List Str :=
  [str "GET / HTTP/1.1\r\nHost: a\r\nCon", str "n", str "ection: b\r\nContent-Length: 0\r\n\r\n"]

/-- The second chunk of `hostChunks` completes a line with a line end left over from the line
    before: the header `Connection` is lost. -/
theorem chunking_loses_header :
    hostRequest.WellFormed ∧ hostRequest.bytes.length ≤ 4095 ∧ (∀ x ∈ hostChunks, x ≠ []) ∧
      hostChunks.flatten = hostRequest.bytes ∧
      ¬ ∃ c c', feed (fun _ => none) (init (str "10.0.0.1")) hostChunks = .ok (true, c) ∧
        feed (fun _ => none) (init (str "10.0.0.1")) [hostRequest.bytes] = .ok (true, c') ∧
        c.httpBase = c'.httpBase := by
  refine ⟨hostRequest_wellFormed, by decide, by decide, by decide, ?_⟩
  rintro ⟨c, c', h, h', hbase⟩
  have h1 : (feed (fun _ => none) (init (str "10.0.0.1")) hostChunks).toOption.map
      (fun r => r.2.httpBase.requestHeaders (str "Connection")) = some none := by
    decide +kernel
  have h2 : (feed (fun _ => none) (init (str "10.0.0.1")) [hostRequest.bytes]).toOption.map
      (fun r => r.2.httpBase.requestHeaders (str "Connection")) = some (some (str "b")) := by
    decide +kernel
  rw [h] at h1
  rw [h'] at h2
  simp only [Except.toOption, Option.map_some, Option.some.injEq] at h1 h2
  rw [hbase, h2] at h1
  cases h1

/-- The condition at a run that meets it: `hostRequest` in one chunk. -/
theorem chunking_independent_host :
    Clean (fun _ => none) (init (str "10.0.0.1")) [hostRequest.bytes] ∧
      ∃ c c', feed (fun _ => none) (init (str "10.0.0.1")) [hostRequest.bytes] = .ok (true, c) ∧
        feed (fun _ => none) (init (str "10.0.0.1")) [hostRequest.bytes] = .ok (true, c') ∧
        c.httpBase = c'.httpBase ∧ c.view = c'.view :=
  ⟨clean_singleton _ _, (chunking_independent_iff_clean (fun _ => none) (str "10.0.0.1") hostRequest
    hostRequest_wellFormed (by decide) [hostRequest.bytes] (by decide) (by decide)).1
      (clean_singleton _ _)⟩

end ReadSide

end ModularNetServer
