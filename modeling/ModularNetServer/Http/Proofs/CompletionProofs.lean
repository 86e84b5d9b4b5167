import ModularNetServer.Http.Proofs.AnswerProofs
import ModularNetServer.Http.Proofs.ExtensionProofs

/-!
# Incomplete and rejected input

After a `process` call that returns false the server waits for more input. Whether some further bytes
make a call return true depends on what has been received: on the line or the body under way, and on
whether a line that has ended was accepted.
-/

namespace ModularNetServer

open Cxx

/-! ## Parsing authenticates nobody -/

namespace HttpRequest

variable {line : Str} {base base' : HttpBase}

theorem authenticated_parseRequestLine (h : parseRequestLine line base = some base') :
    base'.authenticated = base.authenticated := by
  simp only [parseRequestLine] at h
  split_ifs at h
  cases h
  rfl

theorem authenticated_parseHeaders {b : Bool} (h : parseHeaders line base = .ok (b, base')) :
    base'.authenticated = base.authenticated := by
  rcases parseHeaders_cases h with ⟨-, rfl⟩ | ⟨key, value, length, -, rfl⟩
  · rfl
  · rfl

theorem authenticated_parseBody {parseJson : Str → Option Json} {buf : Str} {n : Int}
    (h : parseBody parseJson buf n base = .ok base') : base'.authenticated = base.authenticated := by
  by_cases hn : n < 0
  · rw [parseBody, if_pos hn] at h
    cases h
  · obtain ⟨m, rfl⟩ := Int.eq_ofNat_of_zero_le (not_lt.mp hn)
    obtain ⟨base2, hbase, heq⟩ := parseBody_ok parseJson buf m base
    obtain rfl : base' = base2 := Except.ok.inj (h.symm.trans hbase)
    rw [heq]

end HttpRequest

namespace ReadSide

variable {parseJson : Str → Option Json} {c d side : ReadSide} {b : Bool}

theorem authenticated_next (h : parseStep parseJson c = .ok (.next d)) :
    d.httpBase.authenticated = c.httpBase.authenticated := by
  rcases parseStep_next_cases h with ⟨-, pos, base, -, hline, rfl⟩ | ⟨-, pos, more, base, -, hline, rfl⟩ |
    ⟨-, -, base, hbody, rfl⟩
  · exact HttpRequest.authenticated_parseRequestLine hline
  · exact HttpRequest.authenticated_parseHeaders hline
  · exact HttpRequest.authenticated_parseBody hbody

theorem authenticated_parse (h : parseHttpRequest parseJson c = .ok (b, side)) :
    side.httpBase.authenticated = c.httpBase.authenticated := by
  obtain ⟨hreach, -⟩ := parseHttpRequest_ok h
  have hkept : ∀ s s' : ReadSide, s.httpBase.authenticated = c.httpBase.authenticated →
      parseStep parseJson s = .ok (.next s') → s'.httpBase.authenticated = c.httpBase.authenticated :=
    fun s s' hs hpass => (authenticated_next hpass).trans hs
  exact hreach.invariant hkept rfl

end ReadSide

namespace HttpConn

variable {env : Environment} {i : Interceptor} {w w' : World} {c c' : HttpConn} {b : Bool}

/-- **Some extension** of the received bytes makes a `process` call return true: they arrive in chunks that
    fit the buffer, and each call meets some shared state with the given rules. -/
inductive Completable (env : Environment) (i : Interceptor) : HttpConn → Prop
  | last (c c' : HttpConn) (bytes : Str) (w w' : World) (hbytes : bytes ≠ [])
      (hfits : c.readBuf.idx + bytes.length ≤ readBufferSize) (hw : w.Serves i)
      (hprocess : process env w { c with toReadSide := c.toReadSide.receive bytes } = .ok (true, w', c')) :
      Completable env i c
  | more (c c' : HttpConn) (bytes : Str) (w w' : World) (hbytes : bytes ≠ [])
      (hfits : c.readBuf.idx + bytes.length ≤ readBufferSize) (hw : w.Serves i)
      (hprocess : process env w { c with toReadSide := c.toReadSide.receive bytes } = .ok (false, w', c'))
      (hopen : c'.isClosed = false) (hnext : Completable env i c') : Completable env i c

/-! ## Waiting connections -/

theorem process_incomplete (hw : w.Serves i) {side : ReadSide}
    (hparse : ReadSide.parseHttpRequest env.parseJson c.toReadSide = .ok (false, side)) :
    process env w c = .ok (false, w.tick 1, { c with toReadSide := side }) := by
  unfold process
  rw [isLimit_serves hw]
  simp only [Bool.false_eq_true, if_false, hparse]

theorem process_complete (hw : w.Serves i) {side : ReadSide}
    (hparse : ReadSide.parseHttpRequest env.parseJson c.toReadSide = .ok (true, side))
    (hreq : handleRequest env (w.tick 1) { c with toReadSide := side } = .ok (true, w', c')) :
    ∃ w'', process env w c = .ok (true, w'', c') := by
  refine ⟨w'.refreshSession (HttpRequest.getRequestCookie c'.httpBase (str "session_id")), ?_⟩
  unfold process
  rw [isLimit_serves hw]
  simp only [Bool.false_eq_true, if_false, hparse, hreq]

/-- A shared state that obliges. -/
def obligingWorld (i : Interceptor) : World :=
  { World.start (fun _ => 0) (fun _ => 0) [] (fun _ _ => ⟨true, true, false, false, false, false, []⟩)
      ⟨fun _ => none, fun _ => true, 0⟩ true true with interceptor := i }

theorem obliging_obligingWorld (i : Interceptor) : (obligingWorld i).Obliging i :=
  ⟨⟨rfl, rfl⟩, rfl, rfl, fun _ => rfl, fun _ _ => rfl, fun _ => rfl⟩

/-- A request whose body names a user can be answered. -/
theorem answerable_user {base : HttpBase} (hbody : base.requestBody = userText)
    (hjson : base.requestJson = userJson) : Answerable env i base := by
  intro _ _ handler _
  cases handler with
  | apiEcho =>
    have hlength := HttpResponse.Plain.sendJsonText (r := HttpResponse.empty) ⟨rfl, rfl⟩ base.keepAlive userText
    have htext : userText.length = 26 := by decide
    unfold Handler.Answers
    rw [hbody]
    omega
  | txTest => exact ⟨_, str "a", str "1", 1, hjson, by rfl, by rfl, by decide⟩
  | apiHello => trivial
  | apiTime => trivial
  | apiInfo => trivial
  | login => trivial
  | registerUser => trivial
  | checkToken => trivial

/-- A connection whose input ends with a request that can be answered. -/
theorem completable_last (henv : env.Conforms) (hc : c.Awaiting) (hstate : c.parseState ≠ .done)
    (hauth : c.httpBase.authenticated = false) {bytes : Str} {side : ReadSide} (hbytes : bytes ≠ [])
    (hfits : c.readBuf.idx + bytes.length ≤ readBufferSize)
    (hparse : ReadSide.parseHttpRequest env.parseJson (c.toReadSide.receive bytes) = .ok (true, side))
    (hanswerable : Answerable env i side.httpBase) : Completable env i c := by
  have hobliging := obliging_obligingWorld i
  have hsideAuth : side.httpBase.authenticated = false := (ReadSide.authenticated_parse hparse).trans hauth
  obtain ⟨w', c', hreq⟩ := @handleRequest_obliging env i ((obligingWorld i).tick 1) { c with toReadSide := side }
    henv (obliging_tick hobliging 1) hsideAuth hc.plain (hc.unbuilt hstate) hc.fileOffset hanswerable
  obtain ⟨w'', hprocess⟩ := process_complete
    (c := { c with toReadSide := c.toReadSide.receive bytes }) hobliging.toServes hparse hreq
  exact .last c c' bytes _ w'' hbytes hfits hobliging.toServes hprocess

/-- **A parser that waits** can be taken to the end of a request that is answered. -/
theorem completable_of_waiting (henv : env.Conforms) (hc : c.Awaiting) (hopen : c.isClosed = false)
    (hauth : c.httpBase.authenticated = false)
    (hwaiting : c.toReadSide.Waiting env.parseJson (Answerable env i)) : Completable env i c := by
  have hobliging := obliging_obligingWorld i
  have hline : c.parseState = .requestLine ∨ c.parseState = .headers → Completable env i c := by
    intro hs
    obtain ⟨bytes, side, hbytes, hfits, hparse, hstate, hpending⟩ := ReadSide.waiting_line hwaiting hs
    have hsideAuth : side.httpBase.authenticated = false := (ReadSide.authenticated_parse hparse).trans hauth
    have hbefore : c.parseState ≠ .done := by
      rintro hdone
      rw [hdone] at hs
      rcases hs with hs | hs <;> cases hs
    have hprocess := process_incomplete (c := { c with toReadSide := c.toReadSide.receive bytes })
      hobliging.toServes hparse
    refine .more c _ bytes _ _ hbytes hfits hobliging.toServes hprocess hopen ?_
    have hnext : ({ c with toReadSide := side } : HttpConn).Awaiting :=
      ⟨hc.fileFd, hc.fileOffset, hc.headerSent, hc.plain, fun _ => hc.unbuilt hbefore, fun hdone => by
        rw [hstate] at hdone
        cases hdone⟩
    have hlength : userText.length ≤ 4000 := by decide
    obtain ⟨hroom, side', hparse', -, -, hbody, hjson⟩ :=
      ReadSide.headers_tail hstate hpending hlength henv.parseJson
    refine completable_last henv hnext ?_ hsideAuth ?_ hroom hparse' (answerable_user hbody hjson)
    · rw [show ({ c with toReadSide := side } : HttpConn).parseState = side.parseState from rfl, hstate]
      decide
    · decide
  rcases hs : c.parseState with _ | _ | _ | _
  · exact hline (.inl hs)
  · exact hline (.inr hs)
  · obtain ⟨bytes, side, hbytes, hfits, hparse, hanswerable⟩ := ReadSide.waiting_body hwaiting hs
    exact completable_last henv hc (by rw [hs]; decide) hauth hbytes hfits hparse hanswerable
  · simp only [ReadSide.Waiting, hs] at hwaiting

end HttpConn

end ModularNetServer
