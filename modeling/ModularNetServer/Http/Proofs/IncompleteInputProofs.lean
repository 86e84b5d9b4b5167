import ModularNetServer.Http.Proofs.CompletionProofs

/-!
# What a connection is kept open for

A single boolean stands for input that is not complete, for a line that was rejected and for a response
that could not be copied; the server answers all of them with waiting for more input. It waits for
something only if what has been received can be extended.
-/

namespace ModularNetServer

open Cxx

namespace HttpConn

variable {env : Environment} {i : Interceptor} {w w' : World} {c c' : HttpConn}

/-- What is built for a request that is complete in what has been received fits the write buffer. -/
def ResponseFits (env : Environment) (w : World) (c : HttpConn) : Prop :=
  let w := (w.isLimit (str "access_ip") c.ip).2
  ∀ base, c.toReadSide.searched.completed env.parseJson = some base → ∀ w' r,
    respond env (gate env w base).1 (gate env w base).2.2 (gate env w base).2.1 c.httpResponse = .ok (w', r) →
      r.responseData.length < 4096

/-- **A call that returns false** and leaves the connection open leaves a parser that waits, if what has been
    received can be extended and what is built for it fits. -/
theorem waiting_of_process
    (hextendable : c.toReadSide.searched.Extendable env.parseJson (Answerable env i)) (hfits : ResponseFits env w c)
    (hp : process env w c = .ok (false, w', c')) (hopen : c'.isClosed = false) :
    c'.toReadSide.Waiting env.parseJson (Answerable env i) ∧
      c'.httpBase.authenticated = c.httpBase.authenticated := by
  rcases process_cases hp with ⟨-, hb, -⟩ | ⟨-, -, -, side, hparse, rfl⟩ | ⟨side, w2, hparse, -, hreq, -⟩
  · cases hb
  · exact ⟨ReadSide.waiting_of_parse hextendable hparse, ReadSide.authenticated_parse hparse⟩
  · exfalso
    obtain ⟨hsafe, hunsafe⟩ := ReadSide.parseHttpRequest_outcome env.parseJson c.toReadSide
    by_cases hs : c.toReadSide.searched.Safe
    · obtain ⟨side', hparse', hbase⟩ := hsafe hs
      rw [hparse] at hparse'
      obtain ⟨base, hcompleted⟩ := Option.isSome_iff_exists.mp (congrArg Prod.fst (Except.ok.inj hparse')).symm
      obtain rfl : side = side' := congrArg Prod.snd (Except.ok.inj hparse')
      obtain rfl := hbase base hcompleted
      rcases handleRequest_false hreq with hclosed | ⟨r, hrespond, hlarge, -⟩
      · exact absurd (hopen.symm.trans hclosed) (by decide)
      · have hlength := hfits _ hcompleted _ r hrespond
        omega
    · obtain ⟨e, he⟩ := hunsafe hs
      rw [hparse] at he
      cases he

/-! ## Rejected lines -/

/-- A request line that has been received and is rejected is found, and rejected, by every later call. -/
theorem parse_rejected {parseJson : Str → Option Json} {side : ReadSide} {pos : Nat}
    (hs : side.parseState = .requestLine) (hline : side.view.lineEnd = some pos)
    (hrejected : HttpRequest.parseRequestLine (side.readBuf.pending.take pos) side.httpBase = none) :
    ReadSide.parseHttpRequest parseJson side = .ok (false, side) := by
  obtain ⟨r, hr⟩ := side.readBuf.pending_prefix
  have hfound : side.readBuf.strstr ReadSide.crlf = some pos := by
    rw [ReadBuffer.strstr, ← hr]
    exact Scan.find_prefix hline (Scan.upTo_append_prefix 0 _ r)
  refine Loop.eval_exit ?_
  simp only [ReadSide.parseStep, hs, hfound, ReadSide.take_pending hline]
  rw [show side.view.pending = side.readBuf.pending from rfl, hrejected]

/-- **After a rejected request line** no extension of the received bytes makes a call return true. -/
theorem not_completable_of_rejected {pos : Nat} (hs : c.parseState = .requestLine)
    (hline : c.toReadSide.view.lineEnd = some pos)
    (hrejected : HttpRequest.parseRequestLine (c.readBuf.pending.take pos) c.httpBase = none) :
    ¬ Completable env i c := by
  -- further bytes leave the line where it is
  have hreceive : ∀ (c : HttpConn) (bytes : Str), c.readBuf.idx + bytes.length ≤ readBufferSize →
      c.toReadSide.view.lineEnd = some pos →
      HttpRequest.parseRequestLine (c.readBuf.pending.take pos) c.httpBase = none →
      (c.toReadSide.receive bytes).view.lineEnd = some pos ∧
        HttpRequest.parseRequestLine ((c.toReadSide.receive bytes).readBuf.pending.take pos) c.httpBase = none := by
    intro c bytes hfits hline hrejected
    have hpending : (c.toReadSide.receive bytes).readBuf.pending = c.readBuf.pending ++ bytes :=
      ReadBuffer.pending_receive_of_le hfits
    have hle := LineParser.lineEnd_le hline
    refine ⟨?_, ?_⟩
    · rw [LineParser.lineEnd, show (c.toReadSide.receive bytes).view.pending = _ from hpending]
      exact Scan.find_prefix hline (Scan.upTo_append_prefix 0 _ bytes)
    · rw [hpending, List.take_append_of_le_length (by
        rw [show c.readBuf.pending = c.toReadSide.view.pending from rfl]
        omega)]
      exact hrejected
  intro h
  induction h with
  | last c c' bytes w w' hbytes hfits hw hprocess =>
    obtain ⟨hline', hrejected'⟩ := hreceive c bytes hfits hline hrejected
    rw [process_incomplete (c := { c with toReadSide := c.toReadSide.receive bytes }) hw
      (parse_rejected hs hline' hrejected')] at hprocess
    cases hprocess
  | more c c' bytes w w' hbytes hfits hw hprocess hopen hnext ih =>
    obtain ⟨hline', hrejected'⟩ := hreceive c bytes hfits hline hrejected
    rw [process_incomplete (c := { c with toReadSide := c.toReadSide.receive bytes }) hw
      (parse_rejected hs hline' hrejected')] at hprocess
    cases hprocess
    exact ih hs hline' hrejected'

end HttpConn

namespace ServedConn

variable {env : Environment} {mode : HttpConn.TrigMode} {i : Interceptor} {s s' : ServedConn} {a : Action}

/-- Where a `process` call is made, what has been received can be extended to a request that can be answered,
    and what is built for a complete one fits the write buffer. -/
def InputOpen (env : Environment) (i : Interceptor) (s : ServedConn) : Action → Prop
  | .work (.process w) =>
    s.conn.toReadSide.searched.Extendable env.parseJson (Answerable env i) ∧ HttpConn.ResponseFits env w s.conn
  | _ => True

/-! ## Between two events -/

/-- The connection is armed for reading, or about to be. -/
def rests (s : ServedConn) : Bool :=
  match s.task with
  | some (.modFd .input) => true
  | some _ => false
  | none => s.epoll = some (some .input)

/-- How the connection has come to rest: it has been closed or reset, it rested before, or a call has just
    returned false. -/
theorem rests_step (hs : s.OneShot) (h : step env mode s a = some s') (hrests : s'.rests = true) :
    s'.conn.isClosed = true ∨ s'.conn = s.conn.init s.fd ∨ (s.rests = true ∧ s'.conn = s.conn) ∨
      ∃ w w', a = .work (.process w) ∧ s.awaits = true ∧
        HttpConn.process env w s.conn = .ok (false, w', s'.conn) := by
  cases steps_of_step h with
  | event interest htask hepoll =>
    unfold rests at hrests
    cases interest <;> grind [Interest.stage]
  | read results htask =>
    unfold rests at hrests
    grind
  | process w w' success c htask hprocess =>
    cases success with
    | true => simp [rests] at hrests
    | false => exact .inr (.inr (.inr ⟨w, w', rfl, by simp [awaits, htask], hprocess⟩))
  | writeCallback htask =>
    have hdisarmed := hs (by rw [htask]; rfl)
    simp only [rests, decide_eq_true_eq] at hrests
    split_ifs at hrests
    · rw [hrests] at hdisarmed
      cases hdisarmed
    · simp [modFd] at hrests
  | write results htask =>
    simp only [rests] at hrests
    grind
  | writeAgain results htask =>
    simp only [rests] at hrests
    grind
  | init htask => exact .inr (.inl rfl)
  | modFd interest htask =>
    refine .inr (.inr (.inl ⟨?_, rfl⟩))
    cases interest with
    | input => simp [rests, htask]
    | output => simp [rests, modFd] at hrests
  | closeConnection htask =>
    have hdisarmed := join_closeConnection (hs (by rw [htask]; rfl))
    simp only [rests, decide_eq_true_eq] at hrests
    rw [hrests] at hdisarmed
    cases hdisarmed
  | expire =>
    unfold closeConnection at hrests ⊢
    split_ifs at hrests ⊢
    · exact .inl (HttpConn.isClosed_closeConn _)
    · exact .inr (.inr (.inl ⟨hrests, rfl⟩))
  | shutdown => exact .inl (HttpConn.isClosed_closeConn _)
  | destroy => exact .inl (HttpConn.isClosed_closeConn _)

/-- A closed connection is not registered. -/
theorem unregistered_step (hs : s.conn.isClosed = true → s.epoll = none) (h : step env mode s a = some s')
    (hclosed : s'.conn.isClosed = true) : s'.epoll = none := by
  have hset : ∀ (t : ServedConn) (c : HttpConn), (t.setConn c).conn.isClosed = true → (t.setConn c).epoll = none :=
    fun t c hc => if_pos hc
  have hclose : s.closeConnection.conn.isClosed = true → s.closeConnection.epoll = none := by
    unfold closeConnection
    split_ifs
    · exact hset _ _
    · exact hs
  cases steps_of_step h with
  | event interest htask hepoll =>
    rw [hs hclosed] at hepoll
    cases hepoll
  | read results => exact hset s _ hclosed
  | process w w' success c => exact hset s c hclosed
  | writeCallback =>
    dsimp only at hclosed ⊢
    split_ifs at hclosed ⊢ with hc
    · exact hs hc
    · exact absurd hclosed hc
  | write results => exact hset s _ hclosed
  | writeAgain results => exact hset s _ hclosed
  | init => cases hclosed
  | modFd interest => simp only [modFd, hs hclosed, Option.map_none]
  | closeConnection => exact hclose hclosed
  | expire => exact hclose hclosed
  | shutdown => exact hset _ _ hclosed
  | destroy => exact hset s _ hclosed

/-! ## Runs -/

/-- The parser waits for input that can be extended. -/
structure Ready (env : Environment) (i : Interceptor) (c : HttpConn) : Prop where
  awaiting : c.Awaiting
  unauthenticated : c.httpBase.authenticated = false
  waiting : c.toReadSide.Waiting env.parseJson (Answerable env i)

/-- A connection that has been reset waits for a request line. -/
theorem waiting_init (parseJson : Str → Option Json) (answerable : HttpBase → Prop) (ip : Str) :
    (ReadSide.init ip).Waiting parseJson answerable :=
  ⟨str "GET / HTTP/1.1", ⟨by decide, by decide, by decide⟩, by rfl, List.nil_prefix,
    show 0 < (str "GET / HTTP/1.1").length + 2 by decide⟩

/-- What holds of a connection that is kept open only for input that can be extended. -/
structure KeptOpen (env : Environment) (i : Interceptor) (s : ServedConn) : Prop where
  oneShot : s.OneShot
  awaiting : s.awaits = true → s.conn.Awaiting
  unauthenticated : s.awaits = true → s.conn.httpBase.authenticated = false
  unregistered : s.conn.isClosed = true → s.epoll = none
  ready : s.rests = true → s.conn.isClosed = true ∨ Ready env i s.conn

theorem keptOpen_start (env : Environment) (i : Interceptor) (fd : Int) (ip : Str) :
    KeptOpen env i (start fd ip) where
  oneShot := nofun
  awaiting := fun _ => HttpConn.awaiting_fresh fd ip
  unauthenticated := fun _ => rfl
  unregistered := nofun
  ready := fun _ => .inr ⟨HttpConn.awaiting_fresh fd ip, rfl, waiting_init env.parseJson _ ip⟩

theorem unauthenticated_step (hs : KeptOpen env i s) (hinput : InputOpen env i s a)
    (h : step env mode s a = some s') (hawaits : s'.awaits = true) : s'.conn.httpBase.authenticated = false := by
  have hfrom := awaited_of_step hs.oneShot h hawaits
  generalize s'.conn = c at hfrom
  cases hfrom with
  | reset => rfl
  | kept _ _ hbefore => exact hs.unauthenticated hbefore
  | read results hbefore =>
    obtain ⟨buf, hbuf⟩ := HttpConn.read_eq mode s.conn results
    rw [hbuf]
    exact hs.unauthenticated hbefore
  | closed _ _ hbefore =>
    unfold HttpConn.closeConn
    split_ifs
    · exact hs.unauthenticated hbefore
    · exact hs.unauthenticated hbefore
  | process w w' _ hprocess hopen hbefore =>
    obtain ⟨hextendable, hfits⟩ := hinput
    rw [(HttpConn.waiting_of_process hextendable hfits hprocess hopen).2]
    exact hs.unauthenticated hbefore

theorem ready_step (hs : KeptOpen env i s) (hinput : InputOpen env i s a) (h : step env mode s a = some s')
    (hrests : s'.rests = true) : s'.conn.isClosed = true ∨ Ready env i s'.conn := by
  rcases rests_step hs.oneShot h hrests with hclosed | hreset | ⟨hbefore, hsame⟩ | ⟨w, w', rfl, hawaits, hprocess⟩
  · exact .inl hclosed
  · rw [hreset]
    exact .inr ⟨HttpConn.awaiting_init _ _, rfl, waiting_init env.parseJson _ _⟩
  · rw [hsame]
    exact hs.ready hbefore
  · cases hopen : s'.conn.isClosed with
    | true => exact .inl rfl
    | false =>
      obtain ⟨hextendable, hfits⟩ := hinput
      obtain ⟨hwaiting, hauth⟩ := HttpConn.waiting_of_process hextendable hfits hprocess hopen
      rcases (hs.awaiting hawaits).process hprocess with hawaiting | hclosed
      · exact .inr ⟨hawaiting, hauth.trans (hs.unauthenticated hawaits), hwaiting⟩
      · exact absurd (hopen.symm.trans hclosed) (by decide)

theorem keptOpen_step (hs : KeptOpen env i s) (hinput : InputOpen env i s a)
    (h : step env mode s a = some s') : KeptOpen env i s' where
  oneShot := oneShot_step hs.oneShot h
  awaiting := awaiting_step hs.oneShot hs.awaiting h
  unauthenticated := unauthenticated_step hs hinput h
  unregistered := unregistered_step hs.unregistered h
  ready := ready_step hs hinput h

/-- **Kept open for a reason.** Over every run of a connection, with any bytes in any chunks: if each
    `process` call is made on input that can be extended to a request that can be answered, and builds no
    response that does not fit the write buffer, then after a call that returned false the connection is
    closed or some extension of the received bytes makes a call return true; and whenever it is armed for
    reading it is open and there is such an extension. -/
theorem run_completable (henv : env.Conforms) {fd : Int} {ip : Str} {actions : List Action}
    (hr : Transition.run (step env mode) (start fd ip) actions = some s)
    (hinput : Transition.Meets (step env mode) (InputOpen env i) (start fd ip) actions) :
    (s.task = some (.modFd .input) → s.conn.isClosed = true ∨ HttpConn.Completable env i s.conn) ∧
      (s.epoll = some (some .input) → s.conn.isClosed = false ∧ HttpConn.Completable env i s.conn) := by
  have hs : KeptOpen env i s := Transition.run_invariant
    (fun _ _ _ hs hinput h => keptOpen_step hs hinput h) (keptOpen_start env i fd ip) hinput hr
  have hcompletable : s.rests = true → s.conn.isClosed = false → HttpConn.Completable env i s.conn := by
    intro hrests hopen
    rcases hs.ready hrests with hclosed | hready
    · exact absurd (hopen.symm.trans hclosed) (by decide)
    · exact HttpConn.completable_of_waiting henv hready.awaiting hopen hready.unauthenticated hready.waiting
  constructor
  · intro htask
    cases hopen : s.conn.isClosed with
    | true => exact .inl rfl
    | false => exact .inr (hcompletable (by simp [rests, htask]) hopen)
  · intro harmed
    have htask : s.task = none := by
      by_contra htask
      have hdisarmed := hs.oneShot (Option.isSome_iff_ne_none.mpr htask)
      rw [harmed] at hdisarmed
      cases hdisarmed
    have hopen : s.conn.isClosed = false := by
      by_contra hclosed
      rw [hs.unregistered (by simpa using hclosed)] at harmed
      cases harmed
    exact ⟨hopen, hcompletable (by simp [rests, htask, harmed]) hopen⟩

/-- The repository's routes, with a parser that knows one JSON text. -/
def userEnvironment : Environment :=
  { HttpConn.loginEnvironment with parseJson := fun text => if text = userText then some userJson else none }

theorem conforms_userEnvironment : userEnvironment.Conforms where
  localTime := fun _ => show 2025 < 2 ^ 31 ∧ 1 < 2 ^ 31 ∧ 1 < 2 ^ 31 ∧ 0 < 2 ^ 31 ∧ 0 < 2 ^ 31 ∧ 0 < 2 ^ 31 by decide
  httpPort := by decide
  threadNum := by decide
  parseJson := show (if userText = userText then some userJson else none) = some userJson from if_pos rfl

/-- A client sends the beginning of a request. -/
def partialActions : List Action :=
  [.event, .work (.read [.received 71 (str "ET /index.html HTT")]), .work (.process HttpConn.loginWorld),
    .work .none]

/-- A `process` call finds that beginning. -/
def findsPartial (s : ServedConn) : Action → Bool
  | .work (.process _) =>
    s.conn.toReadSide.searched.parseState = .requestLine && s.conn.toReadSide.searched.lineEnd.isNone &&
      s.conn.toReadSide.searched.pending = str "GET /index.html HTT"
  | _ => true

theorem inputOpen_of_findsPartial (h : findsPartial s a = true) : InputOpen env i s a := by
  unfold InputOpen
  split
  · rename_i w
    simp only [findsPartial, Bool.and_eq_true, decide_eq_true_eq, Option.isNone_iff_eq_none] at h
    obtain ⟨⟨hstate, hend⟩, hpending⟩ := h
    refine ⟨?_, ?_⟩
    · simp only [LineParser.Extendable, hstate, hend, hpending]
      exact ⟨str "GET /index.html HTTP/1.1", ⟨by decide, by decide, by decide⟩, by rfl,
        ⟨str "P/1.1\r\n", by decide⟩, by decide⟩
    · intro base hcompleted
      simp only [LineParser.completed, hstate, LineParser.takeRequestLine, hend] at hcompleted
      cases hcompleted
  · trivial

theorem run_completable_partial :
    ∃ s, Transition.run (step userEnvironment .LT) (start 5 (str "10.0.0.1")) partialActions = some s ∧
      s.epoll = some (some .input) ∧
        HttpConn.Completable userEnvironment HttpConn.loginWorld.interceptor s.conn := by
  obtain ⟨s, hs, harmed⟩ := Option.map_eq_some_iff.mp
    (show (Transition.run (step userEnvironment .LT) (start 5 (str "10.0.0.1")) partialActions).map
      (fun s => s.epoll) = some (some (some .input)) by decide +kernel)
  have hfinds : Transition.Meets (step userEnvironment .LT) (fun s a => findsPartial s a = true)
      (start 5 (str "10.0.0.1")) partialActions := by decide +kernel
  have hinput : Transition.Meets (step userEnvironment .LT)
      (InputOpen userEnvironment HttpConn.loginWorld.interceptor) (start 5 (str "10.0.0.1")) partialActions :=
    Transition.meets_mono (fun _ _ h => inputOpen_of_findsPartial h) hfinds
  exact ⟨s, hs, harmed, ((run_completable conforms_userEnvironment hs hinput).2 harmed).2⟩

/-- A client sends a request line of one word. -/
def oneWordActions : List Action :=
  [.event, .work (.read [.received 88 (str "\r\n")]), .work (.process HttpConn.loginWorld), .work .none]

/-- The line is rejected, and the connection waits for more input although none can help. -/
theorem rejected_line_kept_open :
    HttpConn.loginWorld.Serves HttpConn.loginWorld.interceptor ∧
      ∃ s, Transition.run (step userEnvironment .LT) (start 5 (str "10.0.0.1")) oneWordActions = some s ∧
        s.epoll = some (some .input) ∧
          ¬ HttpConn.Completable userEnvironment HttpConn.loginWorld.interceptor s.conn := by
  refine ⟨⟨rfl, rfl⟩, ?_⟩
  obtain ⟨s, hs, hfacts⟩ := Option.map_eq_some_iff.mp
    (show (Transition.run (step userEnvironment .LT) (start 5 (str "10.0.0.1")) oneWordActions).map
      (fun s => (s.epoll, s.conn.parseState, s.conn.toReadSide.view.lineEnd,
        (HttpRequest.parseRequestLine (s.conn.readBuf.pending.take 1) s.conn.httpBase).isNone)) =
      some (some (some .input), .requestLine, some 1, true) by decide +kernel)
  simp only [Prod.mk.injEq, Option.isNone_iff_eq_none] at hfacts
  obtain ⟨harmed, hstate, hline, hrejected⟩ := hfacts
  exact ⟨s, hs, harmed, HttpConn.not_completable_of_rejected hstate hline hrejected⟩

end ServedConn

end ModularNetServer
