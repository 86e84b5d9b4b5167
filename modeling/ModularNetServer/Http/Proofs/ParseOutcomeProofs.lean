import ModularNetServer.Http.RawRequest

/-!
# What a call of the parser comes to

For every state of the parser: the text it works on, the header lines in it, the request that is
complete in it, and exactly when the call throws.
-/

namespace ModularNetServer

open Cxx

/-! ## The text that a call works on -/

namespace ReadSide

/-- The parser over the text that a call works on. Where the first search runs past the received
    bytes to a line end, the text has the old bytes up to there. -/
def searched (c : ReadSide) : LineParser :=
  if c.parseState = .requestLine ∨ c.parseState = .headers then
    match c.readBuf.strstr crlf with
    | none => c.view
    | some pos =>
      ⟨c.readBuf.mem.take (pos + 2) ++ c.readBuf.pending.drop (pos + 2), c.parseState, c.httpBase⟩
  else c.view

theorem searched_state (c : ReadSide) : c.searched.parseState = c.parseState := by
  unfold searched view
  grind

theorem searched_base (c : ReadSide) : c.searched.httpBase = c.httpBase := by
  unfold searched view
  grind

end ReadSide

/-! ## Header lines -/

/-- The header lines of a text up to the empty line, and what follows that line once it is there. -/
def headerBlock (text : Str) : List Str × Option Str :=
  match h : Scan.find ReadSide.crlf (Scan.upTo 0 text) with
  | none => ([], none)
  | some pos =>
    if text.take pos = str "\r\n" ∨ text.take pos = [] then ([], some (text.drop (pos + 2)))
    else (text.take pos :: (headerBlock (text.drop (pos + 2))).1, (headerBlock (text.drop (pos + 2))).2)
termination_by text.length
decreasing_by
  all_goals
    have hle := (Scan.find_some_le h).trans (Scan.upTo_length_le 0 text)
    have hlen : ReadSide.crlf.length = 2 := rfl
    simp only [List.length_drop]
    omega

theorem headerBlock_none {text : Str} (h : Scan.find ReadSide.crlf (Scan.upTo 0 text) = none) :
    headerBlock text = ([], none) := by
  rw [headerBlock]
  split
  · rfl
  · rename_i pos hpos
    rw [h] at hpos
    cases hpos

theorem headerBlock_some {text : Str} {pos : Nat}
    (h : Scan.find ReadSide.crlf (Scan.upTo 0 text) = some pos) :
    headerBlock text =
      if text.take pos = str "\r\n" ∨ text.take pos = [] then ([], some (text.drop (pos + 2)))
      else (text.take pos :: (headerBlock (text.drop (pos + 2))).1,
        (headerBlock (text.drop (pos + 2))).2) := by
  rw [headerBlock]
  split
  · rename_i hnone
    rw [h] at hnone
    cases hnone
  · rename_i pos' hpos
    rw [h] at hpos
    cases hpos
    rfl

/-- The value of a `Content-Length` line starts with a number that fits an `int`. -/
def LineSafe (line : Str) : Prop :=
  ∀ value, HttpRequest.splitHeader line = some (str "Content-Length", value) → ∃ n, stoi value = .ok n

namespace HttpRequest

/-- A header line is accepted exactly if it is safe. -/
theorem parseHeaders_safe {line : Str} (hne : ¬ (line = str "\r\n" ∨ line = [])) (base : HttpBase) :
    (LineSafe line → parseHeaders line base = .ok (true, applyLine base line)) ∧
    (¬ LineSafe line → ∃ e, parseHeaders line base = .error e) := by
  unfold LineSafe applyLine parseHeaders
  rw [if_neg hne]
  cases hs : splitHeader line with
  | none => exact ⟨fun _ => rfl, fun h => absurd (by simp) h⟩
  | some kv =>
    obtain ⟨key, value⟩ := kv
    by_cases hk : key = str "Content-Length"
    · subst hk
      simp only [applyContentLength, if_true]
      cases hv : stoi value with
      | error e =>
        refine ⟨?_, fun _ => ⟨_, rfl⟩⟩
        intro h
        obtain ⟨n, hn⟩ := h value rfl
        rw [hv] at hn
        cases hn
      | ok n =>
        refine ⟨fun _ => rfl, fun h => absurd ?_ h⟩
        intro value' hs'
        cases hs'
        exact ⟨n, hv⟩
    · simp only [applyContentLength, hk, if_false]
      exact ⟨fun _ => trivial, fun h => absurd (by simp [hk]) h⟩

end HttpRequest

/-! ## The request that is complete -/

namespace LineParser

/-- The request whose body starts a text, once it is all there. -/
def takeBody (parseJson : Str → Option Json) (base : HttpBase) (text : Str) : Option HttpBase :=
  if (text.length : Int) < base.contentLength then none
  else (HttpRequest.parseBody parseJson text base.contentLength base).toOption

/-- The request whose header lines start a text, once it is all there. -/
def takeHeaders (parseJson : Str → Option Json) (base : HttpBase) (text : Str) : Option HttpBase :=
  (headerBlock text).2.bind (takeBody parseJson ((headerBlock text).1.foldl HttpRequest.applyLine base))

/-- The header lines are safe, and once they are all there the announced length is not negative. -/
def HeadersSafe (base : HttpBase) (text : Str) : Prop :=
  (∀ line ∈ (headerBlock text).1, LineSafe line) ∧
    ((headerBlock text).2.isSome →
      0 ≤ ((headerBlock text).1.foldl HttpRequest.applyLine base).contentLength)

/-- What the request line at the start of the text makes of the request, with the text after it. -/
def takeRequestLine (p : LineParser) : Option (HttpBase × Str) :=
  p.lineEnd.bind fun pos =>
    (HttpRequest.parseRequestLine (p.pending.take pos) p.httpBase).map fun base =>
      (base, p.pending.drop (pos + 2))

/-- The request that is complete in what has been received. -/
def completed (parseJson : Str → Option Json) (p : LineParser) : Option HttpBase :=
  match p.parseState with
  | .requestLine => p.takeRequestLine.bind fun r => takeHeaders parseJson r.1 r.2
  | .headers => takeHeaders parseJson p.httpBase p.pending
  | .body => takeBody parseJson p.httpBase p.pending
  | .done => some p.httpBase

/-- What has been received announces no length that cannot be read. -/
def Safe (p : LineParser) : Prop :=
  match p.parseState with
  | .requestLine => ∀ r, p.takeRequestLine = some r → HeadersSafe r.1 r.2
  | .headers => HeadersSafe p.httpBase p.pending
  | .body => 0 ≤ p.httpBase.contentLength
  | .done => True

/-! ## The outcome -/

variable {parseJson : Str → Option Json}

/-- The outcome of a call, given whether it is safe and the request it completes. -/
def Outcome (safe : Prop) (complete : Option HttpBase) (r : Except Escape (Bool × LineParser)) :
    Prop :=
  (safe → ∃ p, r = .ok (complete.isSome, p) ∧ ∀ base, complete = some base → p.httpBase = base) ∧
  (¬ safe → ∃ e, r = .error e)

theorem parse_body_outcome (pending : Str) (base : HttpBase) :
    Outcome (0 ≤ base.contentLength) (takeBody parseJson base pending)
      (parse parseJson ⟨pending, .body, base⟩) := by
  constructor
  · intro h
    obtain ⟨n, hn⟩ := Int.eq_ofNat_of_zero_le h
    by_cases hlen : (pending.length : Int) < base.contentLength
    · have htake : takeBody parseJson base pending = none := if_pos hlen
      refine ⟨⟨pending, .body, base⟩, ?_, ?_⟩
      · rw [parse_body_wait hlen, htake]
        rfl
      · rw [htake]
        simp
    · have hle : n ≤ pending.length := by omega
      obtain ⟨base', hb, hp⟩ := @parse_body parseJson _ _ _ hn hle
      have htake : takeBody parseJson base pending = some base' := by
        rw [takeBody, if_neg hlen, hn, hb]
        rfl
      refine ⟨_, by rw [hp, htake]; rfl, ?_⟩
      intro b hb'
      rw [htake] at hb'
      exact Option.some.inj hb'
  · intro h
    have hlen : ¬ (pending.length : Int) < base.contentLength := by omega
    refine ⟨_, Loop.eval_error (e := .std .lengthError) ?_⟩
    simp [step, hlen, HttpRequest.parseBody, show base.contentLength < 0 by omega]

theorem parse_headers_outcome (pending : Str) (base : HttpBase) :
    Outcome (HeadersSafe base pending) (takeHeaders parseJson base pending)
      (parse parseJson ⟨pending, .headers, base⟩) := by
  induction pending using headerBlock.induct generalizing base with
  | case1 text h =>
    have hexit : parse parseJson ⟨text, .headers, base⟩ = .ok (false, ⟨text, .headers, base⟩) := by
      refine Loop.eval_exit ?_
      simp only [step, lineEnd, h]
    rw [hexit, HeadersSafe, takeHeaders, headerBlock_none h]
    refine ⟨fun _ => ⟨_, rfl, by simp⟩, fun hn => absurd ?_ hn⟩
    simp
  | case2 text pos h hblank =>
    have hnext : parse parseJson ⟨text, .headers, base⟩ =
        parse parseJson ⟨text.drop (pos + 2), .body, base⟩ := by
      refine Loop.eval_next ?_
      simp only [step, lineEnd, h, HttpRequest.parseHeaders, if_pos hblank]
    rw [hnext, HeadersSafe, takeHeaders, headerBlock_some h, if_pos hblank]
    have hbody := @parse_body_outcome parseJson (text.drop (pos + 2)) base
    simpa using hbody
  | case3 text pos h hblank ih =>
    rw [HeadersSafe, takeHeaders, headerBlock_some h, if_neg hblank]
    have hline := HttpRequest.parseHeaders_safe hblank base
    by_cases hsafe : LineSafe (text.take pos)
    · have hnext : parse parseJson ⟨text, .headers, base⟩ =
          parse parseJson
            ⟨text.drop (pos + 2), .headers, HttpRequest.applyLine base (text.take pos)⟩ := by
        refine Loop.eval_next ?_
        simp only [step, lineEnd, h, hline.1 hsafe]
      rw [hnext]
      have hrest := ih (HttpRequest.applyLine base (text.take pos))
      simpa [HeadersSafe, takeHeaders, hsafe] using hrest
    · obtain ⟨e, he⟩ := hline.2 hsafe
      have herror : parse parseJson ⟨text, .headers, base⟩ = .error e := by
        refine Loop.eval_error ?_
        simp only [step, lineEnd, h, he]
      exact ⟨fun hall => absurd (hall.1 _ (List.mem_cons_self ..)) hsafe, fun _ => ⟨e, herror⟩⟩

/-- A call throws exactly if it is not safe, and says that a request is complete exactly if one
    is. -/
theorem parse_outcome (p : LineParser) :
    Outcome p.Safe (p.completed parseJson) (parse parseJson p) := by
  obtain ⟨pending, parseState, base⟩ := p
  cases parseState with
  | requestLine =>
    simp only [Safe, completed]
    have hstep : parse parseJson ⟨pending, .requestLine, base⟩ =
        match takeRequestLine ⟨pending, .requestLine, base⟩ with
        | none => .ok (false, ⟨pending, .requestLine, base⟩)
        | some r => parse parseJson ⟨r.2, .headers, r.1⟩ := by
      unfold takeRequestLine
      cases hpos : lineEnd ⟨pending, .requestLine, base⟩ with
      | none =>
        refine Loop.eval_exit ?_
        simp only [step, hpos]
      | some pos =>
        simp only [Option.bind_some]
        cases hline : HttpRequest.parseRequestLine (pending.take pos) base with
        | none =>
          refine Loop.eval_exit ?_
          simp only [step, hpos, hline]
        | some base' =>
          refine Loop.eval_next ?_
          simp only [step, hpos, hline]
    rw [hstep]
    cases takeRequestLine ⟨pending, .requestLine, base⟩ with
    | none => exact ⟨fun _ => ⟨_, rfl, by simp⟩, fun h => absurd (by simp) h⟩
    | some r => simpa using @parse_headers_outcome parseJson r.2 r.1
  | headers => exact parse_headers_outcome pending base
  | body => exact parse_body_outcome pending base
  | done =>
    refine ⟨fun _ => ⟨_, parse_done pending base, fun b hb => Option.some.inj hb⟩, ?_⟩
    intro h
    exact absurd trivial h

end LineParser

/-! ## The parser of the code -/

namespace ReadSide

/-- The line that the first search finds in memory is the first line of the searched text. -/
theorem searched_line {c : ReadSide} {pos : Nat} (hs : c.parseState = .requestLine ∨ c.parseState = .headers)
    (h : c.readBuf.strstr crlf = some pos) :
    c.searched.lineEnd = some pos ∧ c.searched.pending.take pos = c.readBuf.mem.take pos ∧
      c.searched.pending.drop (pos + 2) = c.readBuf.pending.drop (pos + 2) := by
  have hle : pos + 2 ≤ (Scan.upTo 0 c.readBuf.mem).length := ReadBuffer.strstr_le h
  have hlen := Scan.upTo_length_le 0 c.readBuf.mem
  have hpending : c.searched.pending =
      c.readBuf.mem.take (pos + 2) ++ c.readBuf.pending.drop (pos + 2) := by
    simp [searched, hs, h]
  have hline : (c.readBuf.mem.take (pos + 2)).length = pos + 2 := by
    rw [List.length_take]
    omega
  refine ⟨?_, ?_, ?_⟩
  · have hne : ∀ b ∈ c.readBuf.mem.take (pos + 2), b ≠ 0 := by
      rw [← Scan.take_upTo hle]
      intro b hb
      simpa using List.mem_takeWhile_imp (List.mem_of_mem_take hb)
    have hfind : Scan.find crlf (c.readBuf.mem.take (pos + 2)) = some pos := by
      refine Scan.find_of_prefix h ?_ (le_of_eq hline.symm)
      rw [← Scan.take_upTo hle]
      exact List.take_prefix _ _
    rw [LineParser.lineEnd, hpending, Scan.upTo_append_of_forall_ne hne]
    exact Scan.find_append hfind _
  · rw [hpending, List.take_append_of_le_length (by omega), List.take_take]
    congr 1
    omega
  · rw [hpending]
    exact List.drop_left' hline

/-- The parser of the code does what the parser over the searched text does. -/
theorem parse_searched (parseJson : Str → Option Json) (c : ReadSide) :
    Loop.ResultRel (fun r p => r.1 = p.1 ∧ r.2.httpBase = p.2.httpBase)
      (parseHttpRequest parseJson c) (LineParser.parse parseJson c.searched) := by
  have hview : ∀ c' : ReadSide, c'.SeesOnlyReceived →
      Loop.ResultRel (fun r p => r.1 = p.1 ∧ r.2.httpBase = p.2.httpBase)
        (parseHttpRequest parseJson c') (LineParser.parse parseJson c'.view) := by
    intro c' h
    exact (parse_view parseJson c' h).imp fun r p hrp => ⟨hrp.1, congrArg LineParser.httpBase hrp.2⟩
  by_cases hs : c.parseState = .requestLine ∨ c.parseState = .headers
  · cases hpos : c.readBuf.strstr crlf with
    | none =>
      have hsame : c.searched = c.view := by simp [searched, hs, hpos]
      rw [hsame]
      refine hview c ?_
      intro _
      rw [hpos]
      refine (Option.eq_none_iff_forall_not_mem.mpr ?_).symm
      intro pos hfound
      obtain ⟨r, hr⟩ := c.readBuf.pending_prefix
      have hmem := Scan.find_prefix hfound (Scan.upTo_append_prefix 0 c.view.pending r)
      rw [show c.view.pending ++ r = c.readBuf.mem from hr] at hmem
      rw [ReadBuffer.strstr, hmem] at hpos
      cases hpos
    | some pos =>
      obtain ⟨hend, htake, hdrop⟩ := searched_line hs hpos
      refine Loop.eval_rel_of_pass (R := fun c' p => c'.SeesOnlyReceived ∧ p = c'.view) ?_
        fun c' p _ h => h.2 ▸ hview c' h.1
      -- after the first line only received bytes are left
      have hnext : ∀ s base, SeesOnlyReceived ⟨c.readBuf.removeLine (pos + 2), s, base⟩ ∧
          ⟨c.searched.pending.drop (pos + 2), s, base⟩ =
            view ⟨c.readBuf.removeLine (pos + 2), s, base⟩ := by
        intro s base
        rw [view_removeLine, hdrop]
        exact ⟨seesOnlyReceived_of_terminated (c.readBuf.removeLine_terminated (by omega)), rfl⟩
      unfold parseStep LineParser.step
      rw [searched_state, searched_base, hend]
      rcases hs with hs | hs
      · simp only [hs, hpos, htake]
        cases HttpRequest.parseRequestLine (c.readBuf.mem.take pos) c.httpBase with
        | none => exact ⟨rfl, c.searched_base.symm⟩
        | some base => exact hnext .headers base
      · simp only [hs, hpos, htake]
        cases HttpRequest.parseHeaders (c.readBuf.mem.take pos) c.httpBase with
        | error e => exact rfl
        | ok r =>
          obtain ⟨more, base⟩ := r
          cases more with
          | true => exact hnext .headers base
          | false => exact hnext .body base
  · have hsame : c.searched = c.view := by simp [searched, hs]
    rw [hsame]
    exact hview c fun h => absurd h hs

/-- A call of the parser throws exactly if the text it works on is not safe, and says that a request
    is complete exactly if one is complete in that text. -/
theorem parseHttpRequest_outcome (parseJson : Str → Option Json) (c : ReadSide) :
    (c.searched.Safe → ∃ side,
      parseHttpRequest parseJson c = .ok ((c.searched.completed parseJson).isSome, side) ∧
        ∀ base, c.searched.completed parseJson = some base → side.httpBase = base) ∧
    (¬ c.searched.Safe → ∃ e, parseHttpRequest parseJson c = .error e) := by
  have hrel := parse_searched parseJson c
  have hout := @LineParser.parse_outcome parseJson c.searched
  cases hp : parseHttpRequest parseJson c with
  | error e =>
    refine ⟨?_, fun _ => ⟨e, rfl⟩⟩
    intro hsafe
    obtain ⟨p, hok, -⟩ := hout.1 hsafe
    rw [hp, hok] at hrel
    exact hrel.elim
  | ok r =>
    obtain ⟨complete, side⟩ := r
    constructor
    · intro hsafe
      obtain ⟨p, hok, hbase⟩ := hout.1 hsafe
      rw [hp, hok] at hrel
      exact ⟨side, congrArg (fun b => Except.ok (b, side)) hrel.1,
        fun base h => hrel.2.trans (hbase base h)⟩
    · intro hunsafe
      obtain ⟨e, he⟩ := hout.2 hunsafe
      rw [hp, he] at hrel
      exact hrel.elim

end ReadSide

end ModularNetServer
