import ModularNetServer.Http.Proofs.RoundTripProofs
import ModularNetServer.Http.Proofs.ParseOutcomeProofs

/-!
# Which input can still become a request

A text can be extended to a request if its complete lines are accepted, the line under way is the
beginning of one that is accepted and fits the buffer, and the body under way is the beginning of one of
the announced length. The parser then waits in a state from which such a line, or body, takes it on.
-/

namespace ModularNetServer

open Cxx

/-- A line that fits the read buffer with its end, and that neither a NUL nor an earlier line end breaks. -/
structure FitsLine (line : Str) : Prop where
  noNul : ∀ b ∈ line, b ≠ 0
  noCrlf : Scan.find ReadSide.crlf line = none
  length_le : line.length + 2 ≤ readBufferSize

/-- The text is the beginning of such a line, which is accepted. -/
def Begins (accepted : Str → Prop) (text : Str) : Prop :=
  ∃ line, FitsLine line ∧ accepted line ∧ text <+: line ++ ReadSide.crlf ∧ text.length < line.length + 2

/-- A header line, which is accepted. -/
def HeaderAccepted (line : Str) : Prop := line ≠ [] ∧ LineSafe line

/-- What follows the header lines at the start of a text. -/
def headerRest (text : Str) : Str := text.drop ((headerBlock text).1.map (·.length + 2)).sum

namespace LineParser

variable (parseJson : Str → Option Json) (answerable : HttpBase → Prop)

/-- If some of the body is still to come, the announced length fits the buffer, and there is a body of that
    length with which the request can be answered. -/
def BodyExtendable (base : HttpBase) (text : Str) : Prop :=
  (text.length : Int) < base.contentLength →
    base.contentLength ≤ readBufferSize ∧ ∃ body base', text <+: body ∧
      (body.length : Int) = base.contentLength ∧ takeBody parseJson base body = some base' ∧ answerable base'

/-- The header lines at the start of the text can be completed, or else the body that follows them. -/
def HeadersExtendable (base : HttpBase) (text : Str) : Prop :=
  match (headerBlock text).2 with
  | none => Begins HeaderAccepted (headerRest text)
  | some rest =>
    BodyExtendable parseJson answerable ((headerBlock text).1.foldl HttpRequest.applyLine base) rest

/-- What has been received can be extended to a request that can be answered. -/
def Extendable (p : LineParser) : Prop :=
  match p.parseState with
  | .requestLine =>
    match p.lineEnd with
    | none => Begins (fun line => (HttpRequest.parseRequestLine line p.httpBase).isSome = true) p.pending
    | some _ => ∃ r, p.takeRequestLine = some r ∧ HeadersExtendable parseJson answerable r.1 r.2
  | .headers => HeadersExtendable parseJson answerable p.httpBase p.pending
  | .body => BodyExtendable parseJson answerable p.httpBase p.pending
  | .done => True

end LineParser

/-- The parser waits for the rest of a line or of a body. -/
def ReadSide.Waiting (parseJson : Str → Option Json) (answerable : HttpBase → Prop) (c : ReadSide) : Prop :=
  match c.parseState with
  | .requestLine =>
    Begins (fun line => (HttpRequest.parseRequestLine line c.httpBase).isSome = true) c.readBuf.pending
  | .headers => Begins HeaderAccepted c.readBuf.pending
  | .body =>
    (c.readBuf.idx : Int) < c.httpBase.contentLength ∧
      LineParser.BodyExtendable parseJson answerable c.httpBase c.readBuf.pending
  | .done => False

namespace LineParser

variable {parseJson : Str → Option Json} {answerable : HttpBase → Prop} {base : HttpBase} {text : Str}

/-- A header line at the start of the text leaves the rest to be completed. -/
theorem headersExtendable_line {pos : Nat} (hpos : Scan.find ReadSide.crlf (Scan.upTo 0 text) = some pos)
    (hblank : ¬ (text.take pos = str "\r\n" ∨ text.take pos = [])) :
    HeadersExtendable parseJson answerable base text ↔
      HeadersExtendable parseJson answerable (HttpRequest.applyLine base (text.take pos)) (text.drop (pos + 2)) := by
  have hle : pos + 2 ≤ text.length := (Scan.find_some_le hpos).trans (Scan.upTo_length_le 0 text)
  have hlength : (text.take pos).length = pos := by
    rw [List.length_take]
    omega
  have hrest : headerRest text = headerRest (text.drop (pos + 2)) := by
    unfold headerRest
    rw [headerBlock_some hpos, if_neg hblank, List.map_cons, List.sum_cons, hlength, List.drop_drop]
  unfold HeadersExtendable
  rw [hrest, headerBlock_some hpos, if_neg hblank]
  exact Iff.rfl

/-- The empty line leaves the body to be completed. -/
theorem headersExtendable_blank {pos : Nat} (hpos : Scan.find ReadSide.crlf (Scan.upTo 0 text) = some pos)
    (hblank : text.take pos = str "\r\n" ∨ text.take pos = []) :
    HeadersExtendable parseJson answerable base text ↔
      BodyExtendable parseJson answerable base (text.drop (pos + 2)) := by
  unfold HeadersExtendable
  rw [headerBlock_some hpos, if_pos hblank]
  exact Iff.rfl

/-- Without a line end the line is under way. -/
theorem headersExtendable_begins (hnone : Scan.find ReadSide.crlf (Scan.upTo 0 text) = none) :
    HeadersExtendable parseJson answerable base text ↔ Begins HeaderAccepted text := by
  unfold HeadersExtendable headerRest
  rw [headerBlock_none hnone]
  exact Iff.rfl

end LineParser

namespace ReadSide

variable {parseJson : Str → Option Json} {answerable : HttpBase → Prop} {c d side : ReadSide}

theorem searched_eq_view (h : c.SeesOnlyReceived) : c.searched = c.view := by
  unfold searched
  split_ifs with hs
  · rcases hpos : c.readBuf.strstr crlf with _ | pos
    · rfl
    · have hend : c.view.lineEnd = some pos := (h hs).symm.trans hpos
      have hle : pos + 2 ≤ c.readBuf.pending.length := LineParser.lineEnd_le hend
      have htake : c.readBuf.mem.take (pos + 2) = c.readBuf.pending.take (pos + 2) := by
        rw [ReadBuffer.pending_length] at hle
        rw [ReadBuffer.pending, List.take_take]
        congr 1
        omega
      dsimp only
      rw [htake, List.take_append_drop]
      rfl
  · rfl

/-- Where the search finds no line end, there is none in the received bytes. -/
theorem searched_none (h : c.readBuf.strstr crlf = none) : c.searched = c.view ∧ c.view.lineEnd = none := by
  have hsame : c.searched = c.view := by
    unfold searched
    rw [h]
    exact ite_self _
  refine ⟨hsame, Option.eq_none_iff_forall_not_mem.mpr ?_⟩
  intro pos hfound
  obtain ⟨r, hr⟩ := c.readBuf.pending_prefix
  have hmem := Scan.find_prefix hfound (Scan.upTo_append_prefix 0 c.view.pending r)
  rw [show c.view.pending ++ r = c.readBuf.mem from hr] at hmem
  rw [ReadBuffer.strstr, hmem] at h
  cases h

/-- After a line has been removed the text is what followed it. -/
theorem searched_removeLine {pos : Nat} (hs : c.parseState = .requestLine ∨ c.parseState = .headers)
    (hpos : c.readBuf.strstr crlf = some pos) (s : ParseState) (base : HttpBase) :
    searched ⟨c.readBuf.removeLine (pos + 2), s, base⟩ = ⟨c.searched.pending.drop (pos + 2), s, base⟩ := by
  rw [searched_eq_view (seesOnlyReceived_of_terminated (c.readBuf.removeLine_terminated (by omega))),
    view_removeLine, (searched_line hs hpos).2.2]
  rfl

/-- A pass that goes on leaves a text that can be extended. -/
theorem extendable_next (h : c.searched.Extendable parseJson answerable)
    (hstep : parseStep parseJson c = .ok (.next d)) : d.searched.Extendable parseJson answerable := by
  unfold LineParser.Extendable at h
  rw [searched_state, searched_base] at h
  unfold parseStep at hstep
  rcases hs : c.parseState with _ | _ | _ | _
  all_goals simp only [hs] at h hstep
  · rcases hpos : c.readBuf.strstr crlf with _ | pos
    all_goals simp only [hpos] at hstep
    · cases hstep
    obtain ⟨hend, htake, -⟩ := searched_line (.inl hs) hpos
    simp only [hend, LineParser.takeRequestLine, Option.bind_some, htake, searched_base] at h
    obtain ⟨r, hr, hheaders⟩ := h
    obtain ⟨base, hbase, rfl⟩ := Option.map_eq_some_iff.mp hr
    simp only [hbase] at hstep
    cases hstep
    rw [searched_removeLine (.inl hs) hpos]
    exact hheaders
  · rcases hpos : c.readBuf.strstr crlf with _ | pos
    all_goals simp only [hpos] at hstep
    · cases hstep
    obtain ⟨hend, htake, -⟩ := searched_line (.inr hs) hpos
    by_cases hblank : c.readBuf.mem.take pos = str "\r\n" ∨ c.readBuf.mem.take pos = []
    · rw [HttpRequest.parseHeaders, if_pos hblank] at hstep
      cases hstep
      rw [searched_removeLine (.inr hs) hpos]
      exact (LineParser.headersExtendable_blank hend (by rwa [htake])).mp h
    · obtain ⟨hsafe, hunsafe⟩ := HttpRequest.parseHeaders_safe hblank c.httpBase
      by_cases hline : LineSafe (c.readBuf.mem.take pos)
      · rw [hsafe hline] at hstep
        cases hstep
        rw [searched_removeLine (.inr hs) hpos]
        rw [LineParser.headersExtendable_line hend (by rwa [htake]), htake] at h
        exact h
      · obtain ⟨e, he⟩ := hunsafe hline
        rw [he] at hstep
        cases hstep
  · split_ifs at hstep
    · cases hstep
    · split at hstep
      · cases hstep
      · cases hstep
        unfold LineParser.Extendable
        rw [searched_state]
        trivial
  · cases hstep

/-- Where a call stops without a request, the parser waits. -/
theorem waiting_exit (h : c.searched.Extendable parseJson answerable)
    (hstep : parseStep parseJson c = .ok (.exit (false, d))) : d.Waiting parseJson answerable := by
  obtain ⟨rfl, -⟩ := parseStep_exit hstep
  unfold LineParser.Extendable at h
  rw [searched_state, searched_base] at h
  unfold parseStep at hstep
  unfold Waiting
  rcases hs : d.parseState with _ | _ | _ | _
  all_goals simp only [hs] at h hstep ⊢
  · rcases hpos : d.readBuf.strstr crlf with _ | pos
    · obtain ⟨hview, hend⟩ := searched_none hpos
      rw [hview, hend] at h
      exact h
    · obtain ⟨hend, htake, -⟩ := searched_line (.inl hs) hpos
      simp only [hend, LineParser.takeRequestLine, Option.bind_some, htake, searched_base] at h
      obtain ⟨r, hr, -⟩ := h
      obtain ⟨base, hbase, -⟩ := Option.map_eq_some_iff.mp hr
      simp only [hpos, hbase] at hstep
      cases hstep
  · rcases hpos : d.readBuf.strstr crlf with _ | pos
    · obtain ⟨hview, hend⟩ := searched_none hpos
      rw [hview] at h
      exact (LineParser.headersExtendable_begins hend).mp h
    · simp only [hpos] at hstep
      split at hstep <;> cases hstep
  · split_ifs at hstep with hwait
    · refine ⟨hwait, ?_⟩
      have hview : d.searched = d.view := searched_eq_view (by rw [SeesOnlyReceived, hs]; simp)
      rwa [hview] at h
    · split at hstep <;> cases hstep
  · cases hstep

/-- **A call that returns false** leaves a parser that waits, if what has been received can be extended. -/
theorem waiting_of_parse (h : c.searched.Extendable parseJson answerable)
    (hparse : parseHttpRequest parseJson c = .ok (false, side)) : side.Waiting parseJson answerable := by
  obtain ⟨hreach, hexit⟩ := parseHttpRequest_ok hparse
  have hside : side.searched.Extendable parseJson answerable :=
    hreach.invariant (fun _ _ hd hpass => extendable_next hd hpass) h
  exact waiting_exit hside hexit

/-! ## Going on from such a state -/

/-- A line that has been completed is found, whatever lies behind it in memory. -/
theorem receive_line {line bytes rest : Str} (hline : FitsLine line)
    (hbytes : c.readBuf.pending ++ bytes = line ++ crlf ++ rest)
    (hfits : c.readBuf.idx + bytes.length ≤ readBufferSize) :
    (c.receive bytes).SeesOnlyReceived ∧
      (c.receive bytes).view = ⟨line ++ crlf ++ rest, c.parseState, c.httpBase⟩ := by
  have hview : (c.receive bytes).view = ⟨line ++ crlf ++ rest, c.parseState, c.httpBase⟩ := by
    rw [← hbytes, ← ReadBuffer.pending_receive_of_le hfits]
    rfl
  refine ⟨?_, hview⟩
  intro _
  have hend := LineParser.lineEnd_line hline.noCrlf hline.noNul rest c.parseState c.httpBase
  rw [hview, hend]
  obtain ⟨r, hr⟩ := (c.receive bytes).readBuf.pending_prefix
  have hpending : (c.receive bytes).readBuf.pending = line ++ crlf ++ rest := congrArg LineParser.pending hview
  rw [ReadBuffer.strstr, ← hr, hpending]
  exact Scan.find_prefix hend (Scan.upTo_append_prefix 0 _ r)

/-- What a call makes of received bytes that a search can see. -/
theorem parse_of_view {b : Bool} {p : LineParser} (h : c.SeesOnlyReceived)
    (hparse : LineParser.parse parseJson c.view = .ok (b, p)) :
    ∃ side, parseHttpRequest parseJson c = .ok (b, side) ∧ side.view = p := by
  have hrel := parse_view parseJson c h
  rw [hparse] at hrel
  rcases hcode : parseHttpRequest parseJson c with e | ⟨b', side⟩
  · rw [hcode] at hrel
    exact hrel.elim
  · rw [hcode] at hrel
    obtain ⟨rfl, hside⟩ := hrel
    exact ⟨side, rfl, hside⟩

/-- The rest of a line under way can be received. -/
theorem exists_rest {accepted : Str → Prop} (h : Begins accepted c.readBuf.pending) :
    ∃ line bytes, FitsLine line ∧ accepted line ∧ c.readBuf.pending ++ bytes = line ++ crlf ++ [] ∧
      bytes ≠ [] ∧ c.readBuf.idx + bytes.length ≤ readBufferSize := by
  obtain ⟨line, hline, haccepted, ⟨bytes, hbytes⟩, hlt⟩ := h
  have hlength : c.readBuf.idx + bytes.length = line.length + 2 := by
    rw [← c.readBuf.pending_length, ← List.length_append, hbytes, List.length_append]
    rfl
  rw [c.readBuf.pending_length] at hlt
  have hmax := hline.length_le
  refine ⟨line, bytes, hline, haccepted, by rw [hbytes, List.append_nil], ?_, by omega⟩
  rintro rfl
  rw [List.length_nil] at hlength
  omega

/-- A line that is accepted is taken away, and the parser waits for a header line. -/
theorem parse_receive_line {line bytes : Str} {base : HttpBase} (hline : FitsLine line)
    (hbytes : c.readBuf.pending ++ bytes = line ++ crlf ++ [])
    (hfits : c.readBuf.idx + bytes.length ≤ readBufferSize)
    (haccepted : LineParser.step parseJson ⟨line ++ crlf ++ [], c.parseState, c.httpBase⟩ =
      .ok (.next ⟨[], .headers, base⟩)) :
    ∃ side, parseHttpRequest parseJson (c.receive bytes) = .ok (false, side) ∧ side.parseState = .headers ∧
      side.readBuf.pending = [] := by
  have hnext : LineParser.parse parseJson ⟨[], .headers, base⟩ = .ok (false, ⟨[], .headers, base⟩) :=
    Loop.eval_exit rfl
  obtain ⟨hsees, hview⟩ := receive_line hline hbytes hfits
  have hparse : LineParser.parse parseJson (c.receive bytes).view = .ok (false, ⟨[], .headers, base⟩) := by
    rw [hview, ← hnext]
    exact Loop.eval_next haccepted
  obtain ⟨side, hside, hend⟩ := parse_of_view hsees hparse
  exact ⟨side, hside, congrArg LineParser.parseState hend, congrArg LineParser.pending hend⟩

/-- With the rest of its line the parser goes on to the next header line. -/
theorem waiting_line (h : c.Waiting parseJson answerable)
    (hs : c.parseState = .requestLine ∨ c.parseState = .headers) :
    ∃ bytes side, bytes ≠ [] ∧ c.readBuf.idx + bytes.length ≤ readBufferSize ∧
      parseHttpRequest parseJson (c.receive bytes) = .ok (false, side) ∧ side.parseState = .headers ∧
        side.readBuf.pending = [] := by
  unfold Waiting at h
  rcases hs with hs | hs
  · simp only [hs] at h
    obtain ⟨line, bytes, hline, haccepted, hbytes, hne, hfits⟩ := exists_rest h
    obtain ⟨base, hbase⟩ := Option.isSome_iff_exists.mp haccepted
    obtain ⟨side, hside⟩ := @parse_receive_line parseJson c line bytes base hline hbytes hfits (by
      simp only [hs, LineParser.step, LineParser.lineEnd_line hline.noCrlf hline.noNul, LineParser.take_line,
        LineParser.drop_line, hbase])
    exact ⟨bytes, side, hne, hfits, hside⟩
  · simp only [hs] at h
    obtain ⟨line, bytes, hline, ⟨hnil, hsafe⟩, hbytes, hne, hfits⟩ := exists_rest h
    have hblank : ¬ (line = str "\r\n" ∨ line = []) := by
      rintro (rfl | hline')
      · exact absurd hline.noCrlf (by decide)
      · exact hnil hline'
    have hbase := (HttpRequest.parseHeaders_safe hblank c.httpBase).1 hsafe
    obtain ⟨side, hside⟩ := @parse_receive_line parseJson c line bytes (HttpRequest.applyLine c.httpBase line)
      hline hbytes hfits (by
      simp only [hs, LineParser.step, LineParser.lineEnd_line hline.noCrlf hline.noNul, LineParser.take_line,
        LineParser.drop_line, hbase])
    exact ⟨bytes, side, hne, hfits, hside⟩

/-- With the rest of its body the parser is done. -/
theorem waiting_body (h : c.Waiting parseJson answerable) (hs : c.parseState = .body) :
    ∃ bytes side, bytes ≠ [] ∧ c.readBuf.idx + bytes.length ≤ readBufferSize ∧
      parseHttpRequest parseJson (c.receive bytes) = .ok (true, side) ∧ answerable side.httpBase := by
  simp only [Waiting, hs] at h
  obtain ⟨hwait, hbody⟩ := h
  rw [← c.readBuf.pending_length] at hwait
  obtain ⟨hmax, body, base, ⟨bytes, rfl⟩, hlength, htake, hanswerable⟩ := hbody hwait
  have hidx := c.readBuf.pending_length
  rw [List.length_append] at hlength
  have hfits : c.readBuf.idx + bytes.length ≤ readBufferSize := by omega
  have hsees : (c.receive bytes).SeesOnlyReceived := by
    intro hline
    rw [show (c.receive bytes).parseState = c.parseState from rfl, hs] at hline
    rcases hline with hline | hline <;> cases hline
  have hview : (c.receive bytes).view = ⟨c.readBuf.pending ++ bytes, .body, c.httpBase⟩ := by
    rw [← ReadBuffer.pending_receive_of_le hfits, ← hs]
    rfl
  have hcomplete : c.httpBase.contentLength = ((c.readBuf.pending ++ bytes).length : Nat) := by
    rw [List.length_append]
    omega
  obtain ⟨base', hbase, hparse⟩ := @LineParser.parse_body parseJson _ _ _ hcomplete (le_refl _)
  rw [LineParser.takeBody, hcomplete, if_neg (by omega), hbase] at htake
  obtain rfl : base' = base := Option.some.inj htake
  rw [← hview] at hparse
  obtain ⟨side, hside, hend⟩ := parse_of_view hsees hparse
  refine ⟨bytes, side, ?_, hfits, hside, ?_⟩
  · rintro rfl
    rw [List.length_nil] at hlength
    omega
  · rw [show side.httpBase = base' from congrArg LineParser.httpBase hend]
    exact hanswerable

end ReadSide

/-! ## A JSON body -/

/-- The headers that announce a JSON body of `n` bytes. -/
def jsonHeaders (n : Nat) : List (Str × Str) :=
  [(str "Content-Type", str "application/json"), (str "Content-Length", decimal n)]

/-- The rest of a request from its last header lines on. -/
def jsonTail (body : Str) : Str :=
  RawRequest.headerBytes ((jsonHeaders body.length).map Message.headerLine) ++ (ReadSide.crlf ++ body)

theorem isHeader_jsonHeaders (n : Nat) : ∀ kv ∈ jsonHeaders n, IsHeader kv := by
  intro kv hkv
  rcases List.mem_pair.mp hkv with rfl | rfl
  · refine ⟨by decide, by decide, ?_⟩
    intro b hb
    rw [show b = 97 from (Option.some.inj hb).symm]
    decide
  · have hdigit : ∀ b ∈ decimal n, 48 ≤ b.toNat := by
      intro b hb
      have h := isDigit_of_mem_decimal hb
      simp only [isDigit, Bool.and_eq_true, decide_eq_true_eq, UInt8.le_iff_toNat_le] at h
      exact h.1
    have hne : ∀ b ∈ decimal n, ∀ k : UInt8, k.toNat < 48 → b ≠ k := by
      rintro b hb k hk rfl
      have h := hdigit b hb
      omega
    refine ⟨show ∀ b ∈ str "Content-Length", _ by decide, ?_, ?_⟩
    · exact fun b hb => ⟨hne b hb 13 (by decide), hne b hb 10 (by decide), hne b hb 0 (by decide)⟩
    · intro b hb
      have hmem := List.mem_of_mem_head? hb
      exact ⟨hne b hmem 32 (by decide), hne b hmem 9 (by decide)⟩

theorem announces_jsonHeaders {n : Nat} (hn : n < 2 ^ 31) :
    ∀ kv ∈ jsonHeaders n, Announces n (Message.headerLine kv) := by
  intro kv hkv key value hsplit hkey
  rw [Message.splitHeader_headerLine (isHeader_jsonHeaders n kv hkv)] at hsplit
  rcases List.mem_pair.mp hkv with rfl | rfl
  · cases hsplit
    exact absurd hkey (by decide)
  · cases hsplit
    exact stoi_decimal hn

theorem length_jsonTail {body : Str} (h : body.length < 10 ^ 10) :
    (jsonTail body).length ≤ body.length + 70 := by
  have hdecimal : (decimal body.length).length ≤ 10 := by
    unfold decimal
    rw [List.length_map]
    exact (Nat.length_toDigits_le_iff (by omega) (by omega)).mpr h
  have hlengths : (str "Content-Type").length = 12 ∧ (str "application/json").length = 16 ∧
      (str "Content-Length").length = 14 ∧ ReadSide.crlf.length = 2 := by decide
  simp only [jsonTail, jsonHeaders, RawRequest.headerBytes, Message.headerLine, List.map_cons, List.map_nil,
    List.flatten_cons, List.flatten_nil, List.length_append, List.length_cons, List.length_nil]
  omega

/-- The headers and the body are read back. -/
theorem LineParser.parse_jsonTail {parseJson : Str → Option Json} {body : Str} {json : Json}
    (hbody : body.length < 2 ^ 31) (hjson : parseJson body = some json) (base : HttpBase) :
    ∃ base', parse parseJson ⟨jsonTail body, .headers, base⟩ = .ok (true, ⟨[], .done, base'⟩) ∧
      base'.method = base.method ∧ base'.url = base.url ∧ base'.requestBody = body ∧
        base'.requestJson = json := by
  have hheaders := isHeader_jsonHeaders body.length
  have hannounces := announces_jsonHeaders hbody
  have hlines : ∀ line ∈ (jsonHeaders body.length).map Message.headerLine, IsHeaderLine line := by
    intro line hline
    obtain ⟨kv, hkv, rfl⟩ := List.mem_map.mp hline
    exact Message.headerLine_isHeaderLine (hheaders kv hkv)
  have hannounced : ∀ line ∈ (jsonHeaders body.length).map Message.headerLine, Announces body.length line := by
    intro line hline
    obtain ⟨kv, hkv, rfl⟩ := List.mem_map.mp hline
    exact hannounces kv hkv
  have hcontentLength : ∃ line ∈ (jsonHeaders body.length).map Message.headerLine, IsContentLength line := by
    have hmem : (str "Content-Length", decimal body.length) ∈ jsonHeaders body.length := by simp [jsonHeaders]
    exact ⟨_, List.mem_map_of_mem hmem, _, Message.splitHeader_headerLine (hheaders _ hmem)⟩
  have hlength := HttpRequest.foldl_contentLength hlines hannounced base (.inr hcontentLength)
  obtain ⟨hmethod, hurl, -, hkeys, -⟩ := @Message.foldl_headerLine _ _ hheaders hannounces base _ rfl
  have hread := @parse_lines parseJson _ _ hlines hannounced (ReadSide.crlf ++ body) base
  rw [parse_blank] at hread
  generalize ((jsonHeaders body.length).map Message.headerLine).foldl HttpRequest.applyLine base = base'
    at hlength hmethod hurl hkeys hread
  have htype : base'.getHeader (str "Content-Type") = str "application/json" := by
    rw [HttpBase.getHeader, hkeys]
    rfl
  obtain ⟨base2, hbase, hparse⟩ := @parse_body parseJson _ _ _ hlength (le_refl _)
  have hform : (Scan.find (str "application/x-www-form-urlencoded") (str "application/json")).isSome = false := by
    decide
  have hisJson : (Scan.find (str "application/json") (str "application/json")).isSome = true := by decide
  have hbase2 : base2 = { base' with requestBody := body, requestJson := json } := by
    have hnat : ¬ ((body.length : Int) < 0) := by omega
    unfold HttpRequest.parseBody at hbase
    rw [if_neg hnat] at hbase
    simp only [Int.toNat_natCast, List.take_length] at hbase
    rw [show HttpBase.getHeader { base' with requestBody := body } (str "Content-Type") =
      str "application/json" from htype, hform, hisJson] at hbase
    simp only [Bool.false_eq_true, if_false, if_true, HttpRequest.parseJsonBody, hjson] at hbase
    exact (Except.ok.inj hbase).symm
  rw [List.drop_length] at hparse
  refine ⟨base2, hread.trans hparse, ?_⟩
  rw [hbase2]
  exact ⟨hmethod, hurl, rfl, rfl⟩

/-- After the last complete line they take the parser to the end of the request. -/
theorem ReadSide.headers_tail {parseJson : Str → Option Json} {c : ReadSide} (hs : c.parseState = .headers)
    (hpending : c.readBuf.pending = []) {body : Str} {json : Json} (hbody : body.length ≤ 4000)
    (hjson : parseJson body = some json) :
    c.readBuf.idx + (jsonTail body).length ≤ readBufferSize ∧
      ∃ side, parseHttpRequest parseJson (c.receive (jsonTail body)) = .ok (true, side) ∧
        side.httpBase.method = c.httpBase.method ∧ side.httpBase.url = c.httpBase.url ∧
          side.httpBase.requestBody = body ∧ side.httpBase.requestJson = json := by
  have hidx := c.readBuf.pending_length
  rw [hpending, List.length_nil] at hidx
  have hlength := @length_jsonTail body (by omega)
  have hsize : readBufferSize = 4096 := rfl
  have hfits : c.readBuf.idx + (jsonTail body).length ≤ readBufferSize := by omega
  have hisLine := Message.headerLine_isHeaderLine
    (isHeader_jsonHeaders body.length _ (List.mem_cons_self : (str "Content-Type", str "application/json") ∈ _))
  have hline : FitsLine (Message.headerLine (str "Content-Type", str "application/json")) :=
    ⟨hisLine.noNul, hisLine.noCrlf, by decide⟩
  have hbytes : c.readBuf.pending ++ jsonTail body =
      Message.headerLine (str "Content-Type", str "application/json") ++ crlf ++
        (Message.headerLine (str "Content-Length", decimal body.length) ++ crlf ++ (crlf ++ body)) := by
    rw [hpending, jsonTail]
    simp only [jsonHeaders, RawRequest.headerBytes, List.map_cons, List.map_nil, List.flatten_cons,
      List.flatten_nil, List.nil_append, List.append_nil, List.append_assoc]
  obtain ⟨hsees, hview⟩ := receive_line hline hbytes hfits
  obtain ⟨base, hparse, hmethod, hurl, hrequestBody, hrequestJson⟩ :=
    @LineParser.parse_jsonTail parseJson body json (by omega) hjson c.httpBase
  rw [← hbytes, hpending, List.nil_append, hs] at hview
  rw [← hview] at hparse
  obtain ⟨side, hside, hend⟩ := parse_of_view hsees hparse
  refine ⟨hfits, side, hside, ?_⟩
  rw [show side.httpBase = base from congrArg LineParser.httpBase hend]
  exact ⟨hmethod, hurl, hrequestBody, hrequestJson⟩

end ModularNetServer
