import ModularNetServer.Http.Proofs.ServedConnProofs

/-!
# How often a request is handled

A history numbers the requests that are parsed on a connection and records for each call of a registered
handler which request it is made for.
-/

namespace ModularNetServer

open Cxx

namespace HttpConn

variable {env : Environment} {w w' : World} {c c' : HttpConn} {b : Bool}

/-- The calls of registered handlers between two states of the world. -/
def handlerCalls (env : Environment) (w w' : World) : Nat :=
  ((dispatches w').drop (dispatches w).length).countP (fun d => (Router.route env d.1 d.2).isSome)

/-- A `process` call gets to a registered handler. -/
def handles (env : Environment) (w : World) (c : HttpConn) : Bool :=
  match admitted env w c with
  | none => false
  | some (w, c) =>
    let (verdict, _, base) := gate env w c.httpBase
    verdict = .dispatch && (Router.route env base.method base.url).isSome

theorem handles_admitted {w1 : World} {c1 : HttpConn} (h : admitted env w c = some (w1, c1)) :
    handles env w c = true ↔ (gate env w1 c1.httpBase).1 = .dispatch ∧
      (Router.route env (gate env w1 c1.httpBase).2.2.method (gate env w1 c1.httpBase).2.2.url).isSome = true := by
  unfold handles
  rw [h]
  simp

theorem handlerCalls_eq (hp : process env w c = .ok (b, w', c')) :
    handlerCalls env w w' = if handles env w c then 1 else 0 := by
  rcases process_cases hp with ⟨ha, -, rfl, -⟩ | ⟨ha, -, rfl, -⟩ | ⟨side, w2, -, ha, hreq, rfl⟩
  · simp [handlerCalls, handles, ha, dispatches_isLimit]
  · simp [handlerCalls, handles, ha, dispatches_isLimit]
  · have hcalls := handleRequest_dispatches hreq
    rw [dispatches_isLimit] at hcalls
    have hend : ∀ id, dispatches (if b then w2.refreshSession id else w2) = dispatches w2 := by
      intro id
      cases b with
      | false => rfl
      | true => exact dispatches_refreshSession w2 id
    unfold handlerCalls
    rw [hend, hcalls, List.drop_left]
    have hhandles := handles_admitted ha
    split_ifs with hgate hh hh
    · simp [(hhandles.mp hh).2]
    · simp only [List.countP_singleton, ite_eq_right_iff]
      exact fun hroute => absurd (hhandles.mpr ⟨hgate, hroute⟩) hh
    · exact absurd (hhandles.mp hh).1 hgate
    · rfl

theorem parseState_finish (env : Environment) (w : World) (c : HttpConn) :
    (finish env w c).2.2.parseState = c.parseState := by
  unfold finish generateResponse copyResponseData closeConn
  grind

theorem parseState_handleRequest (h : handleRequest env w c = .ok (b, w', c')) :
    c'.parseState = c.parseState := by
  obtain ⟨w2, r, -, hfinish⟩ := handleRequest_finish h
  have hstate := parseState_finish env w2 { c with httpBase := (gate env w c.httpBase).2.2, httpResponse := r }
  rwa [hfinish] at hstate

/-- A response that does not fit the write buffer has been built by a handler. -/
theorem handles_of_unsent (h : c.Awaiting) (hparse : c.parseState ≠ .done) {side : ReadSide} {w1 w2 : World}
    (ha : admitted env w c = some (w1, { c with toReadSide := side }))
    (hreq : handleRequest env w1 { c with toReadSide := side } = .ok (false, w2, c'))
    (hopen : c'.isClosed = false) : handles env w c = true := by
  by_contra hh
  rw [handles_admitted ha] at hh
  rcases handleRequest_false hreq with hclosed | ⟨r, hrespond, hlarge, -⟩
  · exact absurd (hopen.symm.trans hclosed) (by decide)
  · rcases respond_unhandled h.plain hrespond (fun hverdict => by simpa [hverdict] using hh) with hsame | hshort
    · rw [hsame, h.unbuilt hparse, List.length_nil] at hlarge
      omega
    · omega

end HttpConn

/-- The number of requests parsed, and the numbers of the requests for which a handler has been called. -/
structure RequestHistory where
  parsed : Nat
  handled : List Nat
  deriving DecidableEq

namespace RequestHistory

/-- Nothing has been parsed. -/
def empty : RequestHistory := ⟨0, []⟩

/-- The number of the request that a `process` call may handle, the parser having gone from one state to
    another. -/
def number (h : RequestHistory) (s s' : ParseState) : Nat :=
  if s ≠ .done ∧ s' = .done then h.parsed + 1 else h.parsed

/-- What a `process` call adds. -/
def process (env : Environment) (h : RequestHistory) (w : World) (c : HttpConn) : RequestHistory :=
  match HttpConn.process env w c with
  | .error _ => h
  | .ok (_, w', c') =>
    let number := h.number c.parseState c'.parseState
    ⟨number, h.handled ++ List.replicate (HttpConn.handlerCalls env w w') number⟩

/-- What a step adds. -/
def record (env : Environment) (h : RequestHistory) (s : ServedConn) : ServedConn.Action → RequestHistory
  | .work (.process w) => h.process env w s.conn
  | _ => h

/-- For no request a handler has been called twice. -/
def AtMostOnce (h : RequestHistory) : Prop := h.handled.Nodup

/-- The history fits a connection from which a request is still to come: all numbers have been given, and
    the request of a parser that is done has been handled. -/
structure Matches (h : RequestHistory) (c : HttpConn) : Prop where
  numbers : ∀ n ∈ h.handled, n ≤ h.parsed
  again : c.parseState = .done → h.parsed ∈ h.handled

variable {env : Environment} {h : RequestHistory} {w w' : World} {c c' : HttpConn} {b : Bool}

/-- A call that gets to no handler. -/
theorem process_unhandled (hp : HttpConn.process env w c = .ok (b, w', c'))
    (hh : HttpConn.handles env w c = false) :
    h.process env w c = ⟨h.number c.parseState c'.parseState, h.handled⟩ := by
  simp [process, hp, HttpConn.handlerCalls_eq hp, hh]

/-- A call that gets to a handler. -/
theorem process_handled (hp : HttpConn.process env w c = .ok (b, w', c'))
    (hh : HttpConn.handles env w c = true) :
    h.process env w c = ⟨h.number c.parseState c'.parseState,
      h.handled ++ [h.number c.parseState c'.parseState]⟩ := by
  simp [process, hp, HttpConn.handlerCalls_eq hp, hh]

theorem number_le (h : RequestHistory) (s s' : ParseState) : h.parsed ≤ h.number s s' := by
  unfold number
  split_ifs
  · exact Nat.le_succ _
  · exact le_refl _

/-- A `process` call numbers its request. -/
theorem numbers_process (hn : ∀ n ∈ h.handled, n ≤ h.parsed)
    (hp : HttpConn.process env w c = .ok (b, w', c')) :
    ∀ n ∈ (h.process env w c).handled, n ≤ (h.process env w c).parsed := by
  have hle := h.number_le c.parseState c'.parseState
  cases hh : HttpConn.handles env w c with
  | false =>
    rw [process_unhandled hp hh]
    exact fun n hmem => (hn n hmem).trans hle
  | true =>
    rw [process_handled hp hh]
    intro n hmem
    rcases List.mem_append.mp hmem with hmem | hmem
    · exact (hn n hmem).trans hle
    · exact (List.mem_singleton.mp hmem).le

/-- If a response does not fit, its request has been handled. -/
theorem again_process (hc : c.Awaiting) (hm : h.Matches c)
    (hp : HttpConn.process env w c = .ok (false, w', c')) (hopen : c'.isClosed = false)
    (hdone : c'.parseState = .done) :
    (h.process env w c).parsed ∈ (h.process env w c).handled := by
  cases hh : HttpConn.handles env w c with
  | true =>
    rw [process_handled hp hh]
    simp
  | false =>
    rw [process_unhandled hp hh]
    by_cases hs : c.parseState = .done
    · simp only [number, hs, ne_eq, not_true_eq_false, false_and, if_false]
      exact hm.again hs
    · rcases HttpConn.process_cases hp with ⟨-, hb, -⟩ | ⟨-, -, -, side, hparse, rfl⟩ |
        ⟨side, w2, -, ha, hreq, -⟩
      · cases hb
      · exact absurd ((ReadSide.parse_done_iff hparse).mpr hdone) (by decide)
      · have hhandles := HttpConn.handles_of_unsent hc hs ha hreq hopen
        exact absurd (hh.symm.trans hhandles) (by decide)

/-- **One call.** A request is handled again exactly if the call finds a response that did not fit and gets
    to a handler. -/
theorem process_atMostOnce (hc : c.Awaiting) (hm : h.Matches c)
    (hp : HttpConn.process env w c = .ok (b, w', c')) :
    (h.process env w c).AtMostOnce ↔ h.AtMostOnce ∧
      (4096 ≤ c.httpResponse.responseData.length → HttpConn.handles env w c = false) := by
  unfold AtMostOnce
  cases hh : HttpConn.handles env w c with
  | false =>
    rw [process_unhandled hp hh]
    simp
  | true =>
    rw [process_handled hp hh]
    simp only [List.nodup_append, List.nodup_cons, List.not_mem_nil, not_false_eq_true, List.nodup_nil,
      and_self, true_and, List.mem_singleton, forall_eq, Bool.true_eq_false, imp_false]
    refine and_congr_right fun _ => ?_
    by_cases hs : c.parseState = .done
    · have hnumber : h.number c.parseState c'.parseState = h.parsed := by simp [number, hs]
      rw [hnumber]
      exact iff_of_false (fun hnew => hnew _ (hm.again hs) rfl) (fun hsmall => hsmall (hc.unsent hs))
    · rcases HttpConn.process_cases hp with ⟨ha, -⟩ | ⟨ha, -⟩ | ⟨side, w2, hparse, -, hreq, -⟩
      · simp [HttpConn.handles, ha] at hh
      · simp [HttpConn.handles, ha] at hh
      · have hdone : c'.parseState = .done :=
          (HttpConn.parseState_handleRequest hreq).trans ((ReadSide.parse_done_iff hparse).mp rfl)
        have hnumber : h.number c.parseState c'.parseState = h.parsed + 1 := by simp [number, hs, hdone]
        rw [hnumber, hc.unbuilt hs]
        refine iff_of_true ?_ (by simp)
        intro n hmem heq
        have hle := hm.numbers n hmem
        omega

end RequestHistory

namespace ServedConn

variable {env : Environment} {mode : HttpConn.TrigMode} {s s' : ServedConn} {h : RequestHistory} {a : Action}

/-- A connection whose last response did not fit the write buffer is not processed again in such a way that
    a handler is called. -/
def NoneUnsent (env : Environment) (s : ServedConn) : Action → Prop
  | .work (.process w) => 4096 ≤ s.conn.httpResponse.responseData.length →
      HttpConn.handles env w s.conn = false
  | _ => True

/-- What holds of every connection with its history. -/
structure Counted (p : ServedConn × RequestHistory) : Prop where
  oneShot : p.1.OneShot
  awaiting : p.1.awaits = true → p.1.conn.Awaiting
  numbers : ∀ n ∈ p.2.handled, n ≤ p.2.parsed
  again : p.1.awaits = true → p.1.conn.parseState = .done → p.2.parsed ∈ p.2.handled

theorem counted_start (fd : Int) (ip : Str) : Counted (start fd ip, RequestHistory.empty) where
  oneShot := nofun
  awaiting := fun _ => HttpConn.awaiting_fresh fd ip
  numbers := nofun
  again := nofun

/-- Only a `process` call adds to the history. -/
theorem record_of_ne (ha : ∀ w, a ≠ .work (.process w)) : h.record env s a = h := by
  unfold RequestHistory.record
  split
  · exact absurd rfl (ha _)
  · rfl

theorem counted_step (hs : Counted (s, h)) (hstep : step env mode s a = some s') :
    Counted (s', h.record env s a) := by
  refine ⟨oneShot_step hs.oneShot hstep, awaiting_step hs.oneShot hs.awaiting hstep, ?_, ?_⟩
  · cases steps_of_step hstep with
    | process w w' success c htask hprocess => exact RequestHistory.numbers_process hs.numbers hprocess
    | _ => exact hs.numbers
  · intro hawaits hdone
    have hfrom := awaited_of_step hs.oneShot hstep hawaits
    dsimp only at hdone ⊢
    generalize s'.conn = c at hfrom hdone
    cases hfrom with
    | reset => cases hdone
    | kept _ ha hbefore =>
      rw [record_of_ne ha]
      exact hs.again hbefore hdone
    | read results hbefore =>
      obtain ⟨buf, hbuf⟩ := HttpConn.read_eq mode s.conn results
      rw [hbuf] at hdone
      exact hs.again hbefore hdone
    | closed _ ha hbefore =>
      rw [record_of_ne ha]
      refine hs.again hbefore ?_
      unfold HttpConn.closeConn at hdone
      split_ifs at hdone <;> exact hdone
    | process w w' _ hprocess hopen hbefore =>
      exact RequestHistory.again_process (hs.awaiting hbefore) ⟨hs.numbers, hs.again hbefore⟩ hprocess hopen
        hdone

theorem atMostOnce_step (hs : Counted (s, h)) (hstep : step env mode s a = some s') :
    (h.record env s a).AtMostOnce ↔ h.AtMostOnce ∧ NoneUnsent env s a := by
  cases steps_of_step hstep with
  | process w w' success c htask hprocess =>
    have hawaits : s.awaits = true := by simp [awaits, htask]
    exact RequestHistory.process_atMostOnce (hs.awaiting hawaits) ⟨hs.numbers, hs.again hawaits⟩ hprocess
  | _ => exact (and_iff_left trivial).symm

/-- **Handled at most once.** Over every run of a connection, with any requests, any responses and any
    further bytes, for no request a handler is called twice if and only if no `process` call that gets to
    a handler is made on a connection whose last response did not fit the write buffer. -/
theorem run_atMostOnce_iff {fd : Int} {ip : Str} {actions : List Action} {p : ServedConn × RequestHistory}
    (hr : Transition.run (Transition.withHistory (step env mode) (RequestHistory.record env))
      (start fd ip, RequestHistory.empty) actions = some p) :
    p.2.AtMostOnce ↔ Transition.Meets (step env mode) (NoneUnsent env) (start fd ip) actions := by
  have hinv : ∀ s h a s', Counted (s, h) → step env mode s a = some s' → Counted (s', h.record env s a) :=
    fun _ _ _ _ => counted_step
  have hgood : ∀ s h a s', Counted (s, h) → step env mode s a = some s' →
      ((h.record env s a).AtMostOnce ↔ h.AtMostOnce ∧ NoneUnsent env s a) := fun _ _ _ _ => atMostOnce_step
  exact @Transition.run_history_iff _ _ _ _ _ _ _ (fun p => p.2.AtMostOnce) hinv hgood _ _ _ _ (counted_start fd ip)
    List.nodup_nil hr

/-- Two requests, the second after the response to the first. -/
def helloActions : List Action :=
  let request := str "ET /api/hello HTTP/1.1\r\nconnection: keep-alive\r\n\r\n"
  [.event, .work (.read [.received 71 request]), .work (.process HttpConn.loginWorld), .work .none,
    .event, .work (.write [.accepts 4096]), .work .none, .work .none,
    .event, .work (.read [.received 71 request]), .work (.process HttpConn.loginWorld)]

theorem run_atMostOnce_iff_hello :
    ∃ p, Transition.run (Transition.withHistory (step HttpConn.loginEnvironment .LT)
          (RequestHistory.record HttpConn.loginEnvironment))
        (start 5 (str "10.0.0.1"), RequestHistory.empty) helloActions = some p ∧ p.2.handled = [1, 2] ∧
      Transition.Meets (step HttpConn.loginEnvironment .LT) (NoneUnsent HttpConn.loginEnvironment)
        (start 5 (str "10.0.0.1")) helloActions := by
  obtain ⟨p, hp, hhandled⟩ := Option.map_eq_some_iff.mp
    (show (Transition.run (Transition.withHistory (step HttpConn.loginEnvironment .LT)
          (RequestHistory.record HttpConn.loginEnvironment))
        (start 5 (str "10.0.0.1"), RequestHistory.empty) helloActions).map (fun p => p.2.handled) =
      some [1, 2] by decide +kernel)
  refine ⟨p, hp, hhandled, (run_atMostOnce_iff hp).mp ?_⟩
  unfold RequestHistory.AtMostOnce
  rw [hhandled]
  decide

/-- A request for the echo of a long body, after its first byte. -/
def longEcho : Str := str "OST /api/echo HTTP/1.1\r\nContent-Length: 4010\r\n\r\n" ++ List.replicate 4010 120

/-- The client sends it, and later one byte more. -/
def longEchoActions : List Action :=
  [.event, .work (.read [.received 80 longEcho]), .work (.process HttpConn.loginWorld), .work .none,
    .event, .work (.read [.received 120 []]), .work (.process HttpConn.loginWorld)]

/-- The handler is called twice for the one request. -/
theorem long_echo_handled_twice :
    ∃ p, Transition.run (Transition.withHistory (step HttpConn.loginEnvironment .LT)
          (RequestHistory.record HttpConn.loginEnvironment))
        (start 5 (str "10.0.0.1"), RequestHistory.empty) longEchoActions = some p ∧
      p.2 = ⟨1, [1, 1]⟩ ∧ ¬ p.2.AtMostOnce := by
  obtain ⟨p, hp, hhistory⟩ := Option.map_eq_some_iff.mp
    (show (Transition.run (Transition.withHistory (step HttpConn.loginEnvironment .LT)
          (RequestHistory.record HttpConn.loginEnvironment))
        (start 5 (str "10.0.0.1"), RequestHistory.empty) longEchoActions).map Prod.snd =
      some ⟨1, [1, 1]⟩ by decide +kernel)
  refine ⟨p, hp, hhistory, ?_⟩
  unfold RequestHistory.AtMostOnce
  rw [hhistory]
  decide

end ServedConn

end ModularNetServer
