import ModularNetServer.Http.Pipeline
import ModularNetServer.Http.Proofs.AuthenticationProofs
import ModularNetServer.Http.Proofs.IsolationProofs

/-!
# Which requests of a connection are dispatched

The parser leaves the bytes behind a body in the buffer, but `init` clears the buffer after the response,
so of the requests that a read event delivers only the first is ever dispatched.
-/

namespace ModularNetServer

open Cxx

namespace HttpConn

variable {env : Environment} {w w' : World} {c c' : HttpConn} {mode : TrigMode}

/-! ## Reading -/

/-- `recv` delivers the bytes of the messages. -/
theorem delivery_eq {ms : List Message} (h : Message.stream ms ≠ []) :
    ∃ first rest, Message.stream ms = first :: rest ∧ Message.delivery ms = .received first rest := by
  unfold Message.delivery
  cases hs : Message.stream ms with
  | nil => exact absurd hs h
  | cons first rest => exact ⟨first, rest, rfl, rfl⟩

theorem stream_append (ms ms' : List Message) :
    Message.stream (ms ++ ms') = Message.stream ms ++ Message.stream ms' := by
  simp [Message.stream]

/-- A message has bytes. -/
theorem stream_ne_nil {ms : List Message} (hne : ms ≠ []) (h : ∀ m ∈ ms, m.WellFormed) :
    Message.stream ms ≠ [] := by
  obtain ⟨m, rest, rfl⟩ := List.exists_cons_of_ne_nil hne
  have hm := (h m List.mem_cons_self).method.ne_nil
  intro hs
  have hlen := congrArg List.length hs
  have hpos : 0 < m.method.length := List.length_pos_of_ne_nil hm
  simp only [Message.stream, Message.bytes, Message.head, RawRequest.head, RawRequest.requestLine,
    Message.raw, List.map_cons, List.flatten_cons, List.length_append, List.length_nil] at hlen
  omega

/-- The connection with other bytes in its read buffer. -/
def withBuf (c : HttpConn) (buf : ReadBuffer) : HttpConn := { c with readBuf := buf }

/-- The `recv` calls of a read event deliver all its messages. -/
theorem recvAll_deliveries {recvs : List (List Message)} (hne : ∀ ms ∈ recvs, ms ≠ [])
    (hw : ∀ m ∈ recvs.flatten, m.WellFormed) (hz : c.toReadSide.ZeroTail)
    (hroom : c.readBuf.idx + (Message.stream recvs.flatten).length ≤ readBufferSize) :
    ∃ buf, recvAll c (recvs.map Message.delivery) = (true, c.withBuf buf) ∧
      (c.withBuf buf).toReadSide.ZeroTail ∧
        buf.pending = c.readBuf.pending ++ Message.stream recvs.flatten := by
  induction recvs generalizing c with
  | nil => exact ⟨c.readBuf, rfl, hz, by simp [Message.stream]⟩
  | cons ms recvs ih =>
    rw [List.flatten_cons, stream_append, List.length_append] at hroom
    have hms : ∀ m ∈ ms, m.WellFormed := fun m hm => hw m (by simp [hm])
    obtain ⟨first, rest, hs, hd⟩ := delivery_eq (stream_ne_nil (hne ms List.mem_cons_self) hms)
    have hfit : c.readBuf.idx + (first :: rest).length ≤ readBufferSize := by
      rw [← hs]
      omega
    have hpend := ReadBuffer.pending_receive_of_le hfit
    have hidx : (c.readBuf.receive (first :: rest)).idx = c.readBuf.idx + (first :: rest).length := by
      rw [← ReadBuffer.pending_length, hpend, List.length_append, ReadBuffer.pending_length]
    rw [List.map_cons, hd, recvAll, List.flatten_cons, stream_append, hs]
    by_cases hfull : readBufferSize ≤ (c.readBuf.receive (first :: rest)).idx
    · refine ⟨c.readBuf.receive (first :: rest), if_pos hfull, hz.receive _, ?_⟩
      have hnil : Message.stream recvs.flatten = [] := by
        apply List.eq_nil_of_length_eq_zero
        rw [hs] at hroom
        omega
      rw [hpend, hnil, List.append_nil]
    · have hroom' : (c.withBuf (c.readBuf.receive (first :: rest))).readBuf.idx +
          (Message.stream recvs.flatten).length ≤ readBufferSize := by
        show (c.readBuf.receive (first :: rest)).idx + _ ≤ _
        rw [hidx, ← hs]
        omega
      obtain ⟨buf, hrecv, hzero, hbuf⟩ := ih (c := c.withBuf (c.readBuf.receive (first :: rest)))
        (fun ms hm => hne ms (List.mem_cons_of_mem _ hm)) (fun m hm => hw m (by simp [hm]))
        (hz.receive _) hroom'
      refine ⟨buf, (if_neg hfull).trans hrecv, hzero, ?_⟩
      rw [hbuf]
      show (c.readBuf.receive (first :: rest)).pending ++ _ = _
      rw [hpend, List.append_assoc]

/-- The parser takes the first of the messages that have been read. -/
theorem parse_first {parseJson : Str → Option Json} {ip : Str} {side : ReadSide} {m : Message}
    {ms : List Message} (hm : m.WellFormed) (hz : side.ZeroTail)
    (hview : side.view = ⟨Message.stream (m :: ms), .requestLine, HttpBase.init ip⟩) :
    ∃ side', ReadSide.parseHttpRequest parseJson side = .ok (true, side') ∧
      m.ParsedAs side'.httpBase := by
  obtain ⟨-, hdone⟩ := @ReadSide.parse_message parseJson m hm ip (m.body ++ Message.stream ms)
    (.inr (List.prefix_append _ _))
  obtain ⟨base, hbase, hparse⟩ := hdone (by simp)
  have hv := ReadSide.parse_view parseJson side hz.seesOnlyReceived
  have hbytes : side.view = (ReadSide.init ip).view.append
      (m.head ++ (m.body ++ Message.stream ms)) := by
    rw [hview]
    simp [Message.stream, Message.bytes, LineParser.append, ReadSide.view, ReadSide.init]
  rw [hbytes, hparse] at hv
  cases hp : ReadSide.parseHttpRequest parseJson side with
  | error e =>
    rw [hp] at hv
    exact hv.elim
  | ok r =>
    rw [hp] at hv
    obtain ⟨b, side'⟩ := r
    obtain ⟨rfl, hside⟩ : b = true ∧ side'.view = _ := hv
    refine ⟨side', rfl, ?_⟩
    rw [show side'.httpBase = base from congrArg LineParser.httpBase hside]
    exact hbase

/-! ## Answering -/

theorem dispatches_of_quiet (h : w.Quiet w') : dispatches w' = dispatches w := by
  obtain ⟨es, he, hes⟩ := h.effects
  have hnil : es.filterMap Effect.request = [] := by
    apply List.filterMap_eq_nil_iff.mpr
    intro e hmem
    obtain ⟨path, rfl⟩ := hes e hmem
    rfl
  unfold dispatches
  rw [he, List.filterMap_append, hnil, List.append_nil]

theorem dispatches_emit (w : World) (method path : Str) :
    dispatches (w.emit (.dispatch method path)) = dispatches w ++ [(method, path)] := by
  simp [dispatches, World.emit, Effect.request]

theorem dispatches_createToken (env : Environment) (w : World) (username : Str) (timeoutMs : Int) :
    dispatches (w.createToken env username timeoutMs).2 = dispatches w := by
  simp [dispatches, World.createToken, World.emit, World.tick, Effect.request]

theorem dispatches_gate (env : Environment) (w : World) (base : HttpBase) :
    dispatches (gate env w base).2.1 = dispatches w := by
  unfold dispatches
  rw [effects_gate]

/-- `handleRequest` hands the request to the router exactly if the interceptors let it through. -/
theorem handleRequest_dispatches {b : Bool} (h : handleRequest env w c = .ok (b, w', c')) :
    dispatches w' = dispatches w ++
      if (gate env w c.httpBase).1 = .dispatch then
        [((gate env w c.httpBase).2.2.method, (gate env w c.httpBase).2.2.url)]
      else [] := by
  rcases handleRequest_cases h with ⟨hv, hq⟩ | ⟨hv, w2, hq, hrest⟩
  · rw [if_neg hv, dispatches_of_quiet hq, dispatches_gate, List.append_nil]
  · have hend : dispatches w' = dispatches w2 := by
      rcases hrest with hq' | ⟨username, hq'⟩
      · exact dispatches_of_quiet hq'
      · rw [dispatches_of_quiet hq', dispatches_createToken]
    rw [if_pos hv, hend, dispatches_of_quiet hq, dispatches_emit, dispatches_gate]

theorem httpBase_finish (env : Environment) (w : World) (c : HttpConn) :
    (finish env w c).2.2.httpBase = c.httpBase := by
  unfold finish generateResponse copyResponseData closeConn
  grind

/-- The connection keeps the request as the interceptors have left it. -/
theorem httpBase_handleRequest {b : Bool} (h : handleRequest env w c = .ok (b, w', c')) :
    c'.httpBase = (gate env w c.httpBase).2.2 := by
  unfold handleRequest at h
  generalize gate env w c.httpBase = g at h ⊢
  obtain ⟨verdict, w1, base⟩ := g
  dsimp only at h ⊢
  split at h
  · cases h
  · rename_i w2 r hrespond
    have hfin := httpBase_finish env w2 { c with httpBase := base, httpResponse := r }
    rw [Except.ok.inj h] at hfin
    exact hfin

/-- The interceptors change nothing but who the user is. -/
theorem gate_base (env : Environment) (w : World) (base : HttpBase) :
    (gate env w base).2.2 = base ∨ ∃ username, (gate env w base).2.2 = base.setUsername username := by
  unfold gate parseAuthContext
  grind

theorem parsedAs_gate {m : Message} {base : HttpBase} (h : m.ParsedAs base) (env : Environment)
    (w : World) : m.ParsedAs (gate env w base).2.2 := by
  rcases gate_base env w base with hg | ⟨username, hg⟩
  · rw [hg]
    exact h
  · rw [hg]
    exact ⟨h.method, h.url, h.version, h.headers, h.keepAlive, h.contentLength, h.body⟩

theorem dispatches_isLimit (w : World) (type key : Str) :
    dispatches (w.isLimit type key).2 = dispatches w := rfl

theorem dispatches_refreshSession (w : World) (sessionId : Str) :
    dispatches (w.refreshSession sessionId) = dispatches w := by
  unfold World.refreshSession
  split_ifs <;> rfl

/-- A limited request is answered without being parsed. -/
theorem process_limited {b : Bool} (hp : process env w c = .ok (b, w', c'))
    (hl : (w.isLimit (str "access_ip") c.ip).1 = true) : dispatches w' = dispatches w := by
  simp only [process, hl, if_true] at hp
  split at hp
  · cases hp
  · cases hp
    rfl

/-- A request that is not limited is parsed and handled. -/
theorem process_unlimited {side : ReadSide} (hp : process env w c = .ok (true, w', c'))
    (hl : (w.isLimit (str "access_ip") c.ip).1 = false)
    (hparse : ReadSide.parseHttpRequest env.parseJson c.toReadSide = .ok (true, side)) :
    ∃ w1, handleRequest env (w.isLimit (str "access_ip") c.ip).2 { c with toReadSide := side } =
      .ok (true, w1, c') ∧ dispatches w' = dispatches w1 := by
  simp only [process, hl, Bool.false_eq_true, if_false, hparse] at hp
  split at hp
  · cases hp
  · cases hp
  · rename_i w1 c1 hreq
    cases hp
    exact ⟨w1, hreq, dispatches_refreshSession _ _⟩

/-- What an answered `process` call dispatches: the request that it parses, if that is let through, and
    nothing otherwise. -/
theorem process_dispatchedBy {side : ReadSide} {m : Message} (hp : process env w c = .ok (true, w', c'))
    (hparse : ReadSide.parseHttpRequest env.parseJson c.toReadSide = .ok (true, side))
    (hm : m.ParsedAs side.httpBase) :
    ((w.isLimit (str "access_ip") c.ip).1 = false ∧
        (gate env (w.isLimit (str "access_ip") c.ip).2 side.httpBase).1 = .dispatch ∧
        dispatchedBy w w' c' = [c'.httpBase] ∧ m.ParsedAs c'.httpBase) ∨
      (¬ ((w.isLimit (str "access_ip") c.ip).1 = false ∧
        (gate env (w.isLimit (str "access_ip") c.ip).2 side.httpBase).1 = .dispatch) ∧
        dispatchedBy w w' c' = []) := by
  cases hl : (w.isLimit (str "access_ip") c.ip).1 with
  | true =>
    right
    refine ⟨by simp, ?_⟩
    simp [dispatchedBy, process_limited hp hl]
  | false =>
    obtain ⟨w1, hreq, hw⟩ := process_unlimited hp hl hparse
    have hd := handleRequest_dispatches hreq
    have hbase := httpBase_handleRequest hreq
    rw [← hw, dispatches_isLimit] at hd
    by_cases hg : (gate env (w.isLimit (str "access_ip") c.ip).2 side.httpBase).1 = .dispatch
    · left
      refine ⟨rfl, hg, ?_, ?_⟩
      · rw [if_pos hg] at hd
        simp [dispatchedBy, hd]
      · rw [hbase]
        exact parsedAs_gate hm _ _
    · right
      refine ⟨fun h => hg h.2, ?_⟩
      rw [if_neg hg, List.append_nil] at hd
      simp [dispatchedBy, hd]

/-! ## Write events -/

/-- The tasks of one write event. -/
theorem handleWriteEvents_cons (sockfd : Int) (c : HttpConn) (first second : List SocketResult)
    (events : List (List SocketResult × List SocketResult)) :
    c.handleWriteEvents sockfd ((first, second) :: events) =
      if (c.toWriteSide.write first).1 = .ok then
        some (if c.httpBase.keepAlive then
          some ({ c with toWriteSide := (c.toWriteSide.write first).2.2 }.init sockfd) else none)
      else
        match (c.toWriteSide.write first).2.2.write second with
        | (.ok, _, _) => some none
        | (.again, _, side) => handleWriteEvents sockfd { c with toWriteSide := side } events
        | (.error, _, _) => none := rfl

/-- A connection that stays open after a response has been reset. -/
theorem handleWriteEvents_some {sockfd : Int} {c next : HttpConn}
    {events : List (List SocketResult × List SocketResult)}
    (h : c.handleWriteEvents sockfd events = some (some next)) :
    next.toReadSide = ReadSide.init c.ip ∧ next.ip = c.ip ∧ next.sockfd = sockfd := by
  induction events generalizing c with
  | nil => cases h
  | cons event events ih =>
    obtain ⟨first, second⟩ := event
    rw [handleWriteEvents_cons] at h
    split_ifs at h
    · cases h
      exact ⟨rfl, rfl, rfl⟩
    · cases h
    · split at h
      · cases h
      · have hrest := ih h
        exact hrest
      · cases h

/-- The response is completed by the first `write` of a write event. -/
def firstCompletes (side : WriteSide) : List (List SocketResult × List SocketResult) → Prop
  | [] => False
  | (first, second) :: events =>
    (side.write first).1 = .ok ∨
      (((side.write first).2.2.write second).1 = .again ∧
        firstCompletes ((side.write first).2.2.write second).2.2 events)

/-- After a complete response the connection stays open if and only if the request asked for it and the
    last `write` was the first of its event. -/
theorem handleWriteEvents_open_iff {sockfd : Int} {c : HttpConn} {next : Option HttpConn}
    {events : List (List SocketResult × List SocketResult)}
    (h : c.handleWriteEvents sockfd events = some next) :
    next.isSome = true ↔ c.httpBase.keepAlive = true ∧ firstCompletes c.toWriteSide events := by
  induction events generalizing c with
  | nil => cases h
  | cons event events ih =>
    obtain ⟨first, second⟩ := event
    rw [handleWriteEvents_cons] at h
    rw [firstCompletes]
    by_cases hfirst : (c.toWriteSide.write first).1 = .ok
    · rw [if_pos hfirst] at h
      cases h
      simp only [hfirst, true_or, and_true]
      split_ifs with hk
      · simp [hk]
      · simp [hk]
    · rw [if_neg hfirst] at h
      simp only [hfirst, false_or]
      split at h
      · rename_i hsecond
        cases h
        simp [hsecond]
      · rename_i side hsecond
        rw [ih h, hsecond]
        simp
      · cases h

end HttpConn

/-! ## Exchanges -/

namespace Exchange

variable {mode : HttpConn.TrigMode}

theorem requests_ne_nil (x : Exchange mode) : ∃ m ms, x.requests = m :: ms := by
  obtain ⟨recv, recvs, hr⟩ := List.exists_cons_of_ne_nil x.recvs_ne
  obtain ⟨m, ms, hm⟩ := List.exists_cons_of_ne_nil (x.recv_ne recv (by simp [hr]))
  exact ⟨m, ms ++ recvs.flatten, by simp [requests, hr, hm]⟩

/-- A connection that has just been initialised reads all requests of an exchange. -/
theorem read_init (x : Exchange mode) {c : HttpConn} (hinit : c.toReadSide = ReadSide.init c.ip)
    (hopen : c.sockfd ≠ -1) :
    ∃ buf, x.read c = (true, c.withBuf buf) ∧ (c.withBuf buf).toReadSide.ZeroTail ∧
      buf.pending = Message.stream x.requests := by
  have hz : c.toReadSide.ZeroTail := by
    rw [hinit]
    exact ReadSide.init_zeroTail c.ip
  have hbuf : c.readBuf = ReadBuffer.empty := congrArg ReadSide.readBuf hinit
  have hidx : c.readBuf.idx = 0 := by rw [hbuf]; rfl
  have hpend : c.readBuf.pending = [] := by rw [hbuf]; rfl
  have hread : ¬ (c.sockfd = -1 ∨ readBufferSize ≤ c.readBuf.idx) := by
    rintro (h | h)
    · exact hopen h
    · rw [hidx] at h
      exact absurd h (by decide)
  have hroom : c.readBuf.idx + (Message.stream x.recvs.flatten).length ≤ readBufferSize := by
    rw [hidx, Nat.zero_add]
    exact x.fits
  obtain ⟨buf, hall, hzero, hall'⟩ := HttpConn.recvAll_deliveries x.recv_ne x.wellFormed hz hroom
  rw [hpend, List.nil_append] at hall'
  unfold read HttpConn.read
  rw [if_neg hread]
  cases mode with
  | ET => exact ⟨buf, hall, hzero, hall'⟩
  | LT =>
    obtain ⟨ms, hms⟩ := List.length_eq_one_iff.mp (x.once rfl)
    have hne : Message.stream ms ≠ [] := by
      apply HttpConn.stream_ne_nil (x.recv_ne ms (by simp [hms]))
      intro m hm
      exact x.wellFormed m (by simpa [hms] using hm)
    obtain ⟨first, rest, hs, hd⟩ := HttpConn.delivery_eq hne
    have hfit : c.readBuf.idx + (first :: rest).length ≤ readBufferSize := by
      rw [← hs]
      simpa [hms] using hroom
    refine ⟨c.readBuf.receive (first :: rest), ?_, hz.receive _, ?_⟩
    · rw [hms, List.map_singleton, hd]
      rfl
    · rw [ReadBuffer.pending_receive_of_le hfit, hpend, List.nil_append, requests, hms, ← hs]
      simp

/-- The first request of an exchange is parsed, whatever comes behind it. -/
theorem parse_read (x : Exchange mode) {c : HttpConn} (hinit : c.toReadSide = ReadSide.init c.ip)
    (hopen : c.sockfd ≠ -1) (parseJson : Str → Option Json) {m : Message} {ms : List Message}
    (hm : x.requests = m :: ms) :
    ∃ c' side, x.read c = (true, c') ∧ c'.ip = c.ip ∧
      ReadSide.parseHttpRequest parseJson c'.toReadSide = .ok (true, side) ∧
        m.ParsedAs side.httpBase := by
  obtain ⟨buf, hread, hzero, hpend⟩ := x.read_init hinit hopen
  have hview : (c.withBuf buf).toReadSide.view =
      ⟨Message.stream (m :: ms), .requestLine, HttpBase.init c.ip⟩ := by
    have hstate : c.parseState = .requestLine := congrArg ReadSide.parseState hinit
    have hbase : c.httpBase = HttpBase.init c.ip := congrArg ReadSide.httpBase hinit
    rw [← hm, ← hpend, ← hstate, ← hbase]
    rfl
  have hwf : m.WellFormed := x.wellFormed m (by
    show m ∈ x.requests
    simp [hm])
  obtain ⟨side, hparse, hp⟩ := @HttpConn.parse_first parseJson _ _ _ _ hwf hzero hview
  exact ⟨c.withBuf buf, side, hread, rfl, hparse, hp⟩

end Exchange

namespace Pipeline

variable {env : Environment} {mode : HttpConn.TrigMode} {s s' : Pipeline} {x : Exchange mode}

/-- What holds between exchanges: an open connection has been initialised, and at most what was sent has
    been dispatched. -/
structure Inv (s : Pipeline) : Prop where
  conn : ∀ c, s.conn = some c → c.toReadSide = ReadSide.init c.ip ∧ c.sockfd ≠ -1
  length : s.dispatched.length ≤ s.sent.length

/-- The requests that have been sent have been dispatched, in the same order. -/
def AllDispatched (s : Pipeline) : Prop := List.Forall₂ Message.ParsedAs s.sent s.dispatched

theorem Inv.start (sockfd : Nat) (ip : Str) : Inv (start sockfd ip) where
  conn := by
    rintro c hc
    cases hc
    refine ⟨rfl, ?_⟩
    show (sockfd : Int) ≠ -1
    omega
  length := Nat.le_refl _

theorem forall₂_append_iff {α β : Type*} {R : α → β → Prop} {as as' : List α} {bs bs' : List β}
    (h : as.length = bs.length) :
    List.Forall₂ R (as ++ as') (bs ++ bs') ↔ List.Forall₂ R as bs ∧ List.Forall₂ R as' bs' := by
  constructor
  · intro hall
    have htake := List.forall₂_take_append _ _ _ hall
    have hdrop := List.forall₂_drop_append _ _ _ hall
    rw [← h, List.take_left] at htake
    rw [← h, List.drop_left] at hdrop
    exact ⟨htake, hdrop⟩
  · rintro ⟨hfirst, hrest⟩
    exact List.rel_append hfirst hrest

/-- An exchange that dispatches no more than it sends keeps the order exactly if it dispatches what it
    sends. -/
theorem allDispatched_append (h : s.Inv) {conn : Option HttpConn} {ms : List Message}
    {bases : List HttpBase} (hlen : bases.length ≤ ms.length) :
    AllDispatched ⟨conn, s.sent ++ ms, s.dispatched ++ bases⟩ ↔
      s.AllDispatched ∧ List.Forall₂ Message.ParsedAs ms bases := by
  have hle := h.length
  constructor
  · intro hall
    have heq := hall.length_eq
    simp only [List.length_append] at heq
    exact (forall₂_append_iff (by omega)).mp hall
  · rintro ⟨hall, hnew⟩
    exact (forall₂_append_iff hall.length_eq).mpr ⟨hall, hnew⟩

/-- What a step does with an open connection. -/
theorem step_cases {c : HttpConn} (hc : s.conn = some c) (hr : step env s x = some s') :
    ∃ c1 w c2 conn, x.read c = (true, c1) ∧ HttpConn.process env x.world c1 = .ok (true, w, c2) ∧
      c2.handleWriteEvents c.sockfd x.writes = some conn ∧
        s' = ⟨conn, s.sent ++ x.requests, s.dispatched ++ HttpConn.dispatchedBy x.world w c2⟩ := by
  simp only [step, hc, HttpConn.handleReadEvent] at hr
  split at hr
  · cases hr
  · rename_i w c2 hread
    split at hr
    · cases hr
    · rename_i conn hwrite
      cases hr
      split at hread
      · cases hread
      · rename_i c1 hx
        split at hread
        · rename_i w' c2' hp
          cases hread
          exact ⟨c1, w, c2, conn, hx, hp, hwrite, rfl⟩
        · cases hread

/-- What a step dispatches: the first request, if it is let through. -/
theorem Inv.dispatched (h : s.Inv) {c : HttpConn} (hc : s.conn = some c)
    (hr : step env s x = some s') {m : Message} {ms : List Message} (hm : x.requests = m :: ms) :
    ∃ conn bases, s' = ⟨conn, s.sent ++ x.requests, s.dispatched ++ bases⟩ ∧
      (∀ c', conn = some c' → c'.toReadSide = ReadSide.init c'.ip ∧ c'.sockfd ≠ -1) ∧
      ((LetThrough env c x ∧ ∃ base, bases = [base] ∧ m.ParsedAs base) ∨
        (¬ LetThrough env c x ∧ bases = [])) := by
  obtain ⟨hinit, hopen⟩ := h.conn c hc
  obtain ⟨c1, w, c2, conn, hread, hp, hwrite, rfl⟩ := step_cases hc hr
  obtain ⟨c1', side, hread', hip, hparse, hparsed⟩ := x.parse_read hinit hopen env.parseJson hm
  obtain rfl : c1 = c1' := congrArg Prod.snd (hread.symm.trans hread')
  refine ⟨conn, HttpConn.dispatchedBy x.world w c2, rfl, ?_, ?_⟩
  · rintro c' rfl
    obtain ⟨hnext, hnextip, hsockfd⟩ := HttpConn.handleWriteEvents_some hwrite
    rw [hnext, hnextip, hsockfd]
    exact ⟨rfl, hopen⟩
  · have hlet : LetThrough env c x ↔ (x.world.isLimit (str "access_ip") c1.ip).1 = false ∧
        (HttpConn.gate env (x.world.isLimit (str "access_ip") c1.ip).2 side.httpBase).1 = .dispatch := by
      rw [hip, LetThrough, Exchange.parsed, hread]
      simp [hparse]
    rw [hlet]
    rcases HttpConn.process_dispatchedBy hp hparse hparsed with ⟨hl, hg, hd, hm'⟩ | ⟨hnot, hd⟩
    · exact .inl ⟨⟨hl, hg⟩, c2.httpBase, hd, hm'⟩
    · exact .inr ⟨hnot, hd⟩

theorem Inv.step (h : s.Inv) (hr : step env s x = some s') : s'.Inv := by
  obtain ⟨m, ms, hm⟩ := x.requests_ne_nil
  have hlen := h.length
  cases hc : s.conn with
  | none =>
    simp only [Pipeline.step, hc] at hr
    cases hr
    constructor
    · intro c' hc'
      cases hc'
    · show s.dispatched.length ≤ (s.sent ++ x.requests).length
      rw [List.length_append]
      omega
  | some c =>
    obtain ⟨conn, bases, rfl, hconn, hbases⟩ := h.dispatched hc hr hm
    refine ⟨hconn, ?_⟩
    rcases hbases with ⟨-, base, rfl, -⟩ | ⟨-, rfl⟩
    · simp only [hm, List.length_append, List.length_cons, List.length_nil]
      omega
    · simp only [List.length_append, List.length_nil]
      omega

/-- A step keeps the sequence of requests if and only if it sends one request, which is let through, on an
    open connection. -/
theorem Inv.step_allDispatched (h : s.Inv) (hr : Pipeline.step env s x = some s') :
    s'.AllDispatched ↔ s.AllDispatched ∧ s.OneAtATime env x := by
  obtain ⟨m, ms, hm⟩ := x.requests_ne_nil
  cases hc : s.conn with
  | none =>
    simp only [Pipeline.step, hc] at hr
    cases hr
    have happ := @allDispatched_append s h none x.requests [] (Nat.zero_le _)
    rw [List.append_nil] at happ
    rw [happ]
    simp [OneAtATime, hc, hm]
  | some c =>
    obtain ⟨conn, bases, rfl, -, hbases⟩ := h.dispatched hc hr hm
    have hone : s.OneAtATime env x ↔ ms = [] ∧ LetThrough env c x := by
      simp [OneAtATime, hc, hm]
    rw [hone]
    rcases hbases with ⟨hlet, base, rfl, hbase⟩ | ⟨hnot, rfl⟩
    · rw [allDispatched_append h (by simp [hm]), hm]
      simp [hlet, hbase]
    · rw [allDispatched_append h (by simp), hm]
      simp [hnot]

/-! ## Runs -/

/-- Over every sequence of exchanges on one connection, the sequence of requests dispatched is the
    sequence sent if and only if in each exchange the connection was still open and the read event
    delivered one request, which was let through. -/
theorem run_dispatches_iff (env : Environment) (sockfd : Nat) (ip : Str)
    {exchanges : List (Exchange mode)} {s : Pipeline}
    (hr : Transition.run (step env) (start sockfd ip) exchanges = some s) :
    List.Forall₂ Message.ParsedAs s.sent s.dispatched ↔
      Transition.Meets (step env) (OneAtATime env) (start sockfd ip) exchanges :=
  Transition.run_iff_meets (fun _ _ _ hi ha => hi.step ha) (fun _ _ _ hi ha => hi.step_allDispatched ha)
    (Inv.start sockfd ip) List.Forall₂.nil hr

/-- One or two requests in one `recv`. -/
def echoes (k : Fin 2) : Exchange .LT where
  recvs := [List.replicate (k + 1) ReadSide.echoMessage]
  world := HttpConn.loginWorld
  writes := [([.accepts 4096], [])]
  recvs_ne := by simp
  recv_ne := by simp
  wellFormed := by
    intro m hm
    rw [List.flatten_singleton] at hm
    rw [List.eq_of_mem_replicate hm]
    exact ReadSide.echoMessage_wellFormed
  keepAlive := by
    intro m hm
    rw [List.flatten_singleton] at hm
    rw [List.eq_of_mem_replicate hm]
    rfl
  fits := by
    revert k
    decide +kernel
  once := by simp

/-- One request after the other. -/
theorem run_dispatches_iff_echoes :
    ∃ s, Transition.run (step HttpConn.loginEnvironment) (start 5 (str "10.0.0.1")) [echoes 0, echoes 0] =
        some s ∧ List.Forall₂ Message.ParsedAs s.sent s.dispatched := by
  have hrun : (Transition.run (step HttpConn.loginEnvironment) (start 5 (str "10.0.0.1"))
      [echoes 0, echoes 0]).isSome = true := by decide +kernel
  obtain ⟨s, hs⟩ := Option.isSome_iff_exists.mp hrun
  refine ⟨s, hs, (run_dispatches_iff HttpConn.loginEnvironment 5 (str "10.0.0.1") hs).mpr ?_⟩
  decide +kernel

/-- Of two requests in one `recv` the second is never dispatched, although the connection stays open. -/
theorem second_request_lost :
    ∃ s, Transition.run (step HttpConn.loginEnvironment) (start 5 (str "10.0.0.1")) [echoes 1] = some s ∧
      s.conn.isSome = true ∧ s.sent.length = 2 ∧ s.dispatched.length = 1 ∧
        ¬ List.Forall₂ Message.ParsedAs s.sent s.dispatched := by
  have hrun : (Transition.run (step HttpConn.loginEnvironment) (start 5 (str "10.0.0.1")) [echoes 1]).map
      (fun s => (s.conn.isSome, s.sent.length, s.dispatched.length)) = some (true, 2, 1) := by
    decide +kernel
  obtain ⟨s, hs, hlen⟩ := Option.map_eq_some_iff.mp hrun
  simp only [Prod.mk.injEq] at hlen
  refine ⟨s, hs, hlen.1, hlen.2.1, hlen.2.2, ?_⟩
  intro hall
  have heq := hall.length_eq
  rw [hlen.2.1, hlen.2.2] at heq
  cases heq

end Pipeline

end ModularNetServer
