import ModularNetServer.WebSocket.Proofs.FrameProofs

/-!
# Messages of a stream

`process` takes at most one frame from the buffer, and the handshake clears the buffer. So what is
dispatched keeps up with what has been received exactly when a chunk ends where the handshake ends and
no chunk completes two frames.
-/

namespace ModularNetServer

open Cxx

/-- Text frames and their parser. -/
def frames : Framing Frame UInt8 Str Exception where
  enc := Frame.bytes
  val := Frame.payload
  parse := WebSocketConn.parseWebSocketFrame
  size := Frame.size
  length_enc := Frame.bytes_length
  parse_nil := rfl
  parse_enc := Frame.parse_bytes
  parse_partial := fun f _ => f.parse_partial
  parse_size := fun _ _ _ => Frame.size_of_parse

/-- The head of an opening handshake: the first empty line ends it, and it has a key. -/
structure Handshake (head : Str) : Prop where
  ends : Scan.find (str "\r\n\r\n") head = some (head.length - 4)
  key : (Scan.find (str "Sec-WebSocket-Key: ") head).isSome = true

namespace WebSocketConn

variable {c : WebSocketConn}

/-- The connection is open on the number `fd`. -/
def Open (c : WebSocketConn) (fd : Int) : Prop := c.sockfd = fd ∧ fd ≠ -1 ∧ c.isClosed = false

/-- A `read` that succeeds appends a chunk: what one `recv` call delivers, or all that the calls of the
    loop deliver. -/
theorem read_appends {edgeTriggered : Bool} {calls : List Received} {c' : WebSocketConn}
    (h : c.read edgeTriggered calls = (true, c')) : ∃ chunk, c' = c.receive chunk := by
  have hloop : ∀ (calls : List Received) (c : WebSocketConn), c.readET calls = (true, c') →
      ∃ chunk, c' = c.receive chunk := by
    intro calls
    induction calls with
    | nil =>
      intro c h
      cases h
    | cons call calls ih =>
      intro c h
      cases call with
      | data bytes =>
        obtain ⟨chunk, rfl⟩ := ih _ h
        exact ⟨bytes ++ chunk, by simp [receive]⟩
      | again =>
        cases h
        exact ⟨[], by simp [receive]⟩
      | failed => cases h
      | ended => cases h
  unfold read at h
  split at h
  · cases h
  · split at h
    · exact hloop calls c h
    · split at h
      · rename_i bytes _
        cases h
        exact ⟨bytes, rfl⟩
      · cases h

/-- Sending changes what there is to write. -/
theorem foldl_sendTextFrame (c : WebSocketConn) (msgs : List Str) :
    ∃ w, msgs.foldl sendTextFrame c = { c with writeBuf := w } := by
  induction msgs generalizing c with
  | nil => exact ⟨c.writeBuf, rfl⟩
  | cons msg msgs ih =>
    obtain ⟨w, hw⟩ := ih (c.sendTextFrame msg)
    exact ⟨w, hw⟩

/-- Writing and the `init` call after it leave an open connection as it is, apart from what there was to
    write. -/
theorem write_init {fd : Int} (h : c.Open fd) :
    ((c.write .ok).2.init c.sockfd) = { c with writeBuf := [] } := by
  obtain ⟨rfl, hfd, hopen⟩ := h
  unfold write
  rw [if_neg (by simp [hfd, hopen])]
  unfold init
  exact if_pos ⟨hfd, rfl, hopen⟩

theorem send_write_init {fd : Int} (h : c.Open fd) (msgs : List Str) :
    ((msgs.foldl sendTextFrame c).write .ok).2.init (msgs.foldl sendTextFrame c).sockfd =
      { c with writeBuf := [] } := by
  obtain ⟨w, hw⟩ := foldl_sendTextFrame c msgs
  have hopen : ({ c with writeBuf := w } : WebSocketConn).Open fd := h
  rw [hw]
  exact write_init hopen

theorem handleHandshake_waits (acc : Str → Str) {head rest : Str} (h : Handshake head)
    (hbuf : c.readBuf <+: head ++ rest) (hlt : c.readBuf.length < head.length) :
    c.handleHandshake acc = (false, c) := by
  have hfind : Scan.find (str "\r\n\r\n") c.readBuf = none := by
    cases hf : Scan.find (str "\r\n\r\n") c.readBuf with
    | none => rfl
    | some n =>
      obtain ⟨r, hr⟩ := List.prefix_of_prefix_length_le hbuf (List.prefix_append head rest) hlt.le
      have happ := Scan.find_append hf r
      rw [hr, h.ends] at happ
      have hle : n + 4 ≤ c.readBuf.length := Scan.find_some_le hf
      have := Option.some.inj happ
      omega
  unfold handleHandshake
  rw [hfind]
  split <;> rfl

/-- The head ends after the text that announces the key. -/
theorem key_before_end {head : Str} (h : Handshake head) {pos : Nat}
    (hpos : Scan.find (str "Sec-WebSocket-Key: ") head = some pos) :
    pos + (str "Sec-WebSocket-Key: ").length ≤ head.length - 4 := by
  obtain ⟨hkey, hle⟩ := Scan.find_some_drop hpos
  obtain ⟨hend, hlen⟩ := Scan.find_some_drop h.ends
  have hl : (str "Sec-WebSocket-Key: ").length = 19 := by decide
  have hcr : ∀ b ∈ str "Sec-WebSocket-Key: ", b ≠ 13 := by decide
  change head.length - 4 + 4 ≤ head.length at hlen
  by_contra hover
  -- the carriage return of the empty line would be in the announcing text
  have hd : head.length - 4 - pos < (str "Sec-WebSocket-Key: ").length := by omega
  have h1 : head[head.length - 4]? = some 13 := by
    obtain ⟨r, hr⟩ := hend
    have hget := congrArg (fun l => l[0]?) hr
    have hfirst : (str "\r\n\r\n" ++ r)[0]? = some 13 := rfl
    simpa [hfirst] using hget.symm
  have h2 : (str "Sec-WebSocket-Key: ")[head.length - 4 - pos]? = some 13 := by
    obtain ⟨r, hr⟩ := hkey
    rw [← List.getElem?_append_left hd, hr, List.getElem?_drop, ← h1]
    congr 1
    omega
  exact hcr 13 (List.mem_of_getElem? h2) rfl

/-- The text that announces the key is followed by a line end in the head. -/
theorem exists_line_end {head : Str} (h : Handshake head) {pos : Nat}
    (hpos : Scan.find (str "Sec-WebSocket-Key: ") head = some pos) :
    ∃ len, Scan.find (str "\r\n") (head.drop (pos + (str "Sec-WebSocket-Key: ").length)) = some len := by
  have hbefore := key_before_end h hpos
  have hend : str "\r\n" <+: head.drop (head.length - 4) := by
    have h2 : str "\r\n" <+: str "\r\n\r\n" := by decide
    exact h2.trans (Scan.find_some_drop h.ends).1
  apply Option.isSome_iff_exists.mp
  apply Scan.find_isSome (n := head.length - 4 - (pos + (str "Sec-WebSocket-Key: ").length))
  rw [List.drop_drop]
  rwa [Nat.add_sub_cancel' hbefore]

/-- The response to a handshake. -/
def switchingProtocols (acceptKey : Str) : Str :=
  str "HTTP/1.1 101 Switching Protocols\r\n" ++ str "Upgrade: websocket\r\n" ++
    str "Connection: Upgrade\r\n" ++ str "Sec-WebSocket-Accept: " ++ acceptKey ++ str "\r\n\r\n"

/-- When the three searches succeed, the handshake is answered with the key that they delimit. -/
theorem handleHandshake_found (acc : Str → Str) {e pos len : Nat} (hs : c.status = .handshake)
    (hend : Scan.find (str "\r\n\r\n") c.readBuf = some e)
    (hpos : Scan.find (str "Sec-WebSocket-Key: ") c.readBuf = some pos)
    (hlen : Scan.find (str "\r\n") (c.readBuf.drop (pos + (str "Sec-WebSocket-Key: ").length)) = some len) :
    c.handleHandshake acc =
      (true, { c with
        writeBuf := c.writeBuf ++ switchingProtocols
          (acc ((c.readBuf.drop (pos + (str "Sec-WebSocket-Key: ").length)).take len))
        status := .connected }) := by
  unfold handleHandshake
  rw [if_neg (by rw [hs]; decide), hend, hpos]
  dsimp only
  rw [hlen]
  rfl

theorem handleHandshake_done (acc : Str → Str) {head : Str} (h : Handshake head)
    (hbuf : head <+: c.readBuf) (hs : c.status = .handshake) :
    ∃ w, c.handleHandshake acc = (true, { c with writeBuf := w, status := .connected }) := by
  obtain ⟨rest, hrest⟩ := hbuf
  obtain ⟨pos, hpos⟩ := Option.isSome_iff_exists.mp h.key
  obtain ⟨len, hlen⟩ := exists_line_end h hpos
  have hend := Scan.find_append h.ends rest
  have hkey := Scan.find_append hpos rest
  have hline := Scan.find_append hlen rest
  rw [← List.drop_append_of_le_length (Scan.find_some_le hpos)] at hline
  rw [hrest] at hend hkey hline
  exact ⟨_, handleHandshake_found acc hs hend hkey hline⟩

end WebSocketConn

namespace WsStream

variable {acc : Str → Str} {handler : WsHandler} {s s' : WsStream} {fd : Int}

/-- What the framing consumer has: the messages, and the bytes left over. -/
def view (s : WsStream) : List Str × Str := (s.messages, s.conn.readBuf)

/-- A connection whose handshake is done takes frames as the framing consumer does. -/
theorem serve_connected (ho : s.conn.Open fd) (hs : s.conn.status = .connected) (chunk : Str) :
    (s.serve acc handler chunk).map view = frames.consume s.view chunk ∧
      ∀ s', s.serve acc handler chunk = .ok s' → s'.conn.Open fd ∧ s'.conn.status = .connected := by
  have hs' : (s.conn.receive chunk).status = .connected := hs
  unfold serve WebSocketConn.process Framing.consume
  rw [hs']
  show _ ∧ _
  simp only [WebSocketConn.receive, view, frames]
  cases hp : WebSocketConn.parseWebSocketFrame (s.conn.readBuf ++ chunk) with
  | error e => exact ⟨rfl, fun s' h => by cases h⟩
  | ok o =>
    cases o with
    | none =>
      constructor
      · simp [Except.map, view, messages]
      · intro s' h
        cases h
        exact ⟨ho, hs⟩
    | some r =>
      obtain ⟨m, rest⟩ := r
      dsimp only
      have hopen : ({ s.conn with status := .connected, readBuf := rest } : WebSocketConn).Open fd := ho
      simp only [if_true]
      rw [WebSocketConn.send_write_init hopen]
      constructor
      · simp [Except.map, view, messages]
      · intro s' h
        cases h
        exact ⟨ho, rfl⟩

theorem feed_append (s : WsStream) (chunks chunks' : List Str) :
    s.feed acc handler (chunks ++ chunks') =
      match s.feed acc handler chunks with
      | .error e => .error e
      | .ok s => s.feed acc handler chunks' := by
  induction chunks generalizing s with
  | nil => rfl
  | cons chunk chunks ih =>
    simp only [List.cons_append, feed]
    cases s.serve acc handler chunk with
    | error e => rfl
    | ok s => exact ih s

theorem feed_connected (ho : s.conn.Open fd) (hs : s.conn.status = .connected) (chunks : List Str) :
    (s.feed acc handler chunks).map view = frames.run s.view chunks := by
  induction chunks generalizing s with
  | nil => rfl
  | cons chunk chunks ih =>
    obtain ⟨hmap, hkeep⟩ := @serve_connected acc handler s fd ho hs chunk
    simp only [feed, Framing.run]
    cases hserve : s.serve acc handler chunk with
    | error e =>
      rw [hserve] at hmap
      rw [← hmap]
      rfl
    | ok s' =>
      obtain ⟨ho', hs'⟩ := hkeep s' hserve
      rw [hserve] at hmap
      rw [← hmap]
      exact ih ho' hs'

/-! ## The handshake -/

/-- The connection waits for the end of the handshake. -/
structure Waiting (s : WsStream) (fd : Int) : Prop where
  isOpen : s.conn.Open fd
  status : s.conn.status = .handshake
  dispatched : s.dispatched = []

theorem waiting_accepted (m : WebsocketConnManager) (fd : Nat) : (accepted m fd).Waiting fd where
  isOpen := by
    refine ⟨rfl, by omega, rfl⟩
  status := rfl
  dispatched := rfl

/-- A chunk that does not complete the head. -/
theorem serve_waits (h : s.Waiting fd) {head rest chunk : Str} (hh : Handshake head)
    (hbuf : s.conn.readBuf ++ chunk <+: head ++ rest)
    (hlt : (s.conn.readBuf ++ chunk).length < head.length) :
    ∃ s', s.serve acc handler chunk = .ok s' ∧ s'.Waiting fd ∧
      s'.conn.readBuf = s.conn.readBuf ++ chunk := by
  have hs' : (s.conn.receive chunk).status = .handshake := h.status
  have hwait := @WebSocketConn.handleHandshake_waits (s.conn.receive chunk) acc head rest hh hbuf hlt
  unfold serve WebSocketConn.process
  rw [hs']
  dsimp only
  rw [hwait]
  refine ⟨_, rfl, ⟨h.isOpen, h.status, ?_⟩, rfl⟩
  rw [h.dispatched]
  rfl

/-- A chunk that completes the head. -/
theorem serve_handshake (h : s.Waiting fd) {head chunk : Str} (hh : Handshake head)
    (hbuf : head <+: s.conn.readBuf ++ chunk) :
    ∃ s', s.serve acc handler chunk = .ok s' ∧ s'.conn.Open fd ∧ s'.conn.status = .connected ∧
      s'.view = ([], []) := by
  have hs' : (s.conn.receive chunk).status = .handshake := h.status
  obtain ⟨w, hdone⟩ := @WebSocketConn.handleHandshake_done (s.conn.receive chunk) acc head hh hbuf hs'
  unfold serve WebSocketConn.process
  rw [hs']
  dsimp only
  rw [hdone]
  dsimp only
  simp only [if_true]
  have hinit := @WebSocketConn.write_init
    { s.conn with
      writeBuf := w
      status := .connected
      path := WebSocketConn.extractPathFromRequest (s.conn.readBuf ++ chunk)
      readBuf := [] } fd h.isOpen
  simp only [WebSocketConn.receive] at hinit ⊢
  rw [hinit]
  refine ⟨_, rfl, h.isOpen, rfl, ?_⟩
  simp [view, messages, h.dispatched]

/-- Chunks that do not complete the head. -/
theorem feed_waits (h : s.Waiting fd) {head rest : Str} (hh : Handshake head) {chunks : List Str}
    (hbuf : s.conn.readBuf ++ chunks.flatten <+: head ++ rest)
    (hlt : (s.conn.readBuf ++ chunks.flatten).length < head.length) :
    ∃ s', s.feed acc handler chunks = .ok s' ∧ s'.Waiting fd ∧
      s'.conn.readBuf = s.conn.readBuf ++ chunks.flatten := by
  induction chunks generalizing s with
  | nil => exact ⟨s, rfl, h, by simp⟩
  | cons chunk chunks ih =>
    rw [List.flatten_cons, ← List.append_assoc] at hbuf hlt ⊢
    have hlen : (s.conn.readBuf ++ chunk).length < head.length := by
      rw [List.length_append] at hlt
      omega
    obtain ⟨t, ht, hw, hr⟩ := @serve_waits acc handler s fd h head rest chunk hh
      ((List.prefix_append _ _).trans hbuf) hlen
    rw [← hr] at hbuf hlt ⊢
    obtain ⟨s', hs', hw', hr'⟩ := ih hw hbuf hlt
    exact ⟨s', by simp only [feed, ht, hs'], hw', hr'⟩

/-- After the chunk that completes the head the frames are taken as the framing consumer takes them. -/
theorem feed_after_head (m : WebsocketConnManager) (fd : Nat) {head rest : Str} (hh : Handshake head)
    {pre : List Str} {x : Str} (hpre : (pre ++ [x]).flatten <+: head ++ rest)
    (hlt : pre.flatten.length < head.length) (hle : head.length ≤ (pre ++ [x]).flatten.length)
    (post : List Str) :
    ((accepted m fd).feed acc handler (pre ++ [x] ++ post)).map view = frames.run ([], []) post := by
  have hflat : (pre ++ [x]).flatten = pre.flatten ++ x := by simp
  rw [hflat] at hpre hle
  obtain ⟨s, hs, hw, hr⟩ := @feed_waits acc handler (accepted m fd) fd (waiting_accepted m fd) head rest
    hh pre ((List.prefix_append _ x).trans hpre) hlt
  replace hr : s.conn.readBuf = pre.flatten := hr
  have hhead : head <+: s.conn.readBuf ++ x := by
    rw [hr]
    exact List.prefix_of_prefix_length_le (List.prefix_append head rest) hpre hle
  obtain ⟨s', hs', ho, hc, hv⟩ := @serve_handshake acc handler s fd hw head x hh hhead
  rw [List.append_assoc, feed_append, hs]
  simp only [List.singleton_append, feed, hs']
  rw [feed_connected ho hc, hv]

/-- A chunk has at most one message dispatched. -/
theorem serve_messages {chunk : Str} (h : s.serve acc handler chunk = .ok s') :
    s'.messages.length ≤ s.messages.length + 1 := by
  unfold serve at h
  split at h
  · cases h
  · rename_i r _
    cases h
    simp only [messages, List.length_map, List.length_append]
    have : r.dispatched.toList.length ≤ 1 := by cases r.dispatched <;> simp
    omega

/-! ## Messages -/

/-- How many frames are complete when `n` bytes have been received. -/
def completed (head : Str) (fs : List Frame) (n : Nat) : Nat := frames.complete fs (n - head.length)

/-- A chunk ends where the handshake ends, and no chunk completes two frames. -/
def OneAtATime (head : Str) (fs : List Frame) (chunks : List Str) : Prop :=
  (∃ pre, pre <+: chunks ∧ pre.flatten = head) ∧
    ∀ pre x, pre ++ [x] <+: chunks →
      completed head fs (pre ++ [x]).flatten.length ≤ completed head fs pre.flatten.length + 1

/-- Once these chunks have been processed, the messages dispatched are the payloads of the frames that are
    complete. -/
def Delivered (acc : Str → Str) (handler : WsHandler) (m : WebsocketConnManager) (fd : Nat) (head : Str)
    (fs : List Frame) (pre : List Str) : Prop :=
  ∃ s, (accepted m fd).feed acc handler pre = .ok s ∧
    s.messages = (fs.take (completed head fs pre.flatten.length)).map Frame.payload

/-- The chunk in which the first `n` bytes of a stream are complete. -/
theorem exists_reaches {n : Nat} (h0 : 0 < n) {chunks : List Str} (hn : n ≤ chunks.flatten.length) :
    ∃ pre x post, chunks = pre ++ [x] ++ post ∧ pre.flatten.length < n ∧
      n ≤ (pre ++ [x]).flatten.length := by
  induction chunks using List.reverseRecOn with
  | nil =>
    simp only [List.flatten_nil, List.length_nil] at hn
    omega
  | append_singleton chunks chunk ih =>
    by_cases hle : n ≤ chunks.flatten.length
    · obtain ⟨pre, x, post, heq, hlt, hge⟩ := ih hle
      exact ⟨pre, x, post ++ [chunk], by simp [heq], hlt, hge⟩
    · exact ⟨chunks, chunk, [], by simp, by omega, hn⟩

/-- A prefix that reaches the end of the handshake goes on after the chunk that reaches it. -/
theorem prefix_after_head {pre₀ post pre : List Str} {x : Str} {n : Nat}
    (hpre : pre <+: pre₀ ++ [x] ++ post) (hlt : pre₀.flatten.length < n) (hle : n ≤ pre.flatten.length) :
    ∃ post', pre = pre₀ ++ [x] ++ post' ∧ post' <+: post := by
  rcases List.prefix_or_prefix_of_prefix hpre (List.prefix_append (pre₀ ++ [x]) post) with h | h
  · rcases List.prefix_concat_iff.mp h with rfl | h
    · exact ⟨[], by simp, List.nil_prefix⟩
    · have := h.flatten.length_le
      omega
  · obtain ⟨post', rfl⟩ := h
    exact ⟨post', rfl, (List.prefix_append_right_inj _).mp hpre⟩

/-- If everything has been delivered, the chunk that completes the head ends with it. -/
theorem head_alone {m : WebsocketConnManager} {fd : Nat} {head : Str} (hh : Handshake head)
    {fs : List Frame} {pre₀ post : List Str} {x : Str}
    (hflat : (pre₀ ++ [x] ++ post).flatten = head ++ frames.stream fs)
    (hlt : pre₀.flatten.length < head.length) (hle : head.length ≤ (pre₀ ++ [x]).flatten.length)
    (h : Delivered acc handler m fd head fs (pre₀ ++ [x] ++ post)) :
    (pre₀ ++ [x]).flatten = head := by
  obtain ⟨s, hs, hmsgs⟩ := h
  have hpre : (pre₀ ++ [x]).flatten <+: head ++ frames.stream fs := by
    rw [← hflat]
    exact (List.prefix_append _ _).flatten
  have hlen := congrArg List.length hflat
  rw [List.flatten_append, List.length_append, List.length_append] at hlen
  -- every frame is complete, and the bytes after the head are those of the frames
  have hall : completed head fs (pre₀ ++ [x] ++ post).flatten.length = fs.length := by
    rw [hflat, completed, List.length_append, Nat.add_sub_cancel_left]
    exact Framing.complete_stream fs
  rw [hall, List.take_length] at hmsgs
  have hrun := @feed_after_head acc handler m fd head (frames.stream fs) hh pre₀ x hpre hlt hle post
  rw [hs] at hrun
  have hsize := Framing.run_size hrun.symm
  have hstream := Framing.length_stream (F := frames) fs
  change ((s.messages).map frames.size).sum + _ ≤ _ at hsize
  rw [hmsgs] at hsize
  change _ = ((fs.map Frame.payload).map frames.size).sum at hstream
  simp only [List.map_nil, List.sum_nil, List.length_nil] at hsize
  have hhead := List.prefix_of_prefix_length_le (List.prefix_append head _) hpre hle
  exact (hhead.eq_of_length (by omega)).symm

/-- If a chunk ends where the head ends, it is the one that completes the head. -/
theorem head_ends {head rest : Str} {pre₀ post pre₁ : List Str} {x : Str}
    (hpre : (pre₀ ++ [x]).flatten <+: head ++ rest) (hlt : pre₀.flatten.length < head.length)
    (hle : head.length ≤ (pre₀ ++ [x]).flatten.length) (hpre₁ : pre₁ <+: pre₀ ++ [x] ++ post)
    (hhead : pre₁.flatten = head) : (pre₀ ++ [x]).flatten = head := by
  obtain ⟨post₁, heq, -⟩ := prefix_after_head hpre₁ hlt (by rw [hhead])
  have hlen : (pre₀ ++ [x]).flatten.length ≤ head.length := by
    rw [← hhead, heq]
    exact (List.prefix_append _ post₁).flatten.length_le
  have hhead' := List.prefix_of_prefix_length_le (List.prefix_append head _) hpre hle
  exact (hhead'.eq_of_length (by omega)).symm

/-- Behind the head no chunk completes two frames. -/
theorem single_after_head {head : Str} {fs : List Frame} {pre post : List Str}
    (hends : pre.flatten = head)
    (hone : ∀ q y, q ++ [y] <+: pre ++ post →
      completed head fs (q ++ [y]).flatten.length ≤ completed head fs q.flatten.length + 1) :
    frames.Single fs post := by
  have hcount : ∀ q : List Str, (pre ++ q).flatten.length - head.length = q.flatten.length := by
    intro q
    rw [List.flatten_append, hends, List.length_append, Nat.add_sub_cancel_left]
  intro q y hq
  have hcut : pre ++ q ++ [y] <+: pre ++ post := by
    rw [List.append_assoc]
    exact (List.prefix_append_right_inj _).mpr hq
  have hstep := hone (pre ++ q) y hcut
  rw [List.append_assoc pre q [y]] at hstep
  simp only [completed, hcount] at hstep
  exact hstep

theorem delivered_of_oneAtATime {m : WebsocketConnManager} {fd : Nat} {head : Str} (hh : Handshake head)
    {fs : List Frame} {chunks : List Str} (hflat : chunks.flatten = head ++ frames.stream fs)
    (h : OneAtATime head fs chunks) {pre : List Str} (hpre : pre <+: chunks) :
    Delivered acc handler m fd head fs pre := by
  obtain ⟨⟨pre₁, hpre₁, hhead⟩, hone⟩ := h
  have h0 : 0 < head.length := by
    have : head.length - 4 + 4 ≤ head.length := Scan.find_some_le hh.ends
    omega
  have hn : head.length ≤ chunks.flatten.length := by
    rw [hflat, List.length_append]
    omega
  obtain ⟨pre₀, x, post, rfl, hlt, hle⟩ := exists_reaches h0 hn
  have hreach : ∀ q : List Str, q <+: pre₀ ++ [x] ++ post → q.flatten <+: head ++ frames.stream fs := by
    intro q hq
    rw [← hflat]
    exact hq.flatten
  have hpre₀ := hreach (pre₀ ++ [x]) (List.prefix_append _ _)
  have hends := head_ends hpre₀ hlt hle hpre₁ hhead
  have hpost : frames.stream fs = post.flatten := by
    rw [List.flatten_append, hends] at hflat
    exact (List.append_cancel_left hflat).symm
  by_cases hwait : pre.flatten.length < head.length
  · -- the handshake is not complete, and no frame is
    obtain ⟨s, hs, hw, -⟩ := @feed_waits acc handler (accepted m fd) fd (waiting_accepted m fd) head
      (frames.stream fs) hh pre (hreach pre hpre) hwait
    refine ⟨s, hs, ?_⟩
    have hzero : completed head fs pre.flatten.length = 0 := by
      rw [completed, Nat.sub_eq_zero_of_le (by omega)]
      exact Framing.complete_zero fs
    rw [hzero]
    simp [messages, hw.dispatched]
  · obtain ⟨post', rfl, hpost'⟩ := prefix_after_head hpre hlt (by omega)
    have hcut : pre₀ ++ [x] ++ post' <+: pre₀ ++ [x] ++ post :=
      (List.prefix_append_right_inj _).mpr hpost'
    have hsingle := single_after_head hends (fun q y hq => hone q y (hq.trans hcut))
    have hrun := Framing.run_of_single (by rw [hpost]; exact hpost'.flatten) hsingle
    have hfeed := @feed_after_head acc handler m fd head (frames.stream fs) hh pre₀ x hpre₀ hlt hle post'
    rw [hrun] at hfeed
    cases hs : (accepted m fd).feed acc handler (pre₀ ++ [x] ++ post') with
    | error e =>
      rw [hs] at hfeed
      cases hfeed
    | ok s =>
      rw [hs] at hfeed
      refine ⟨s, hs, ?_⟩
      have hview := congrArg Prod.fst (Except.ok.inj hfeed)
      rw [completed, List.flatten_append, hends, List.length_append, Nat.add_sub_cancel_left]
      exact hview

/-- The exact condition under which the messages keep up with what has been received: a chunk ends where
    the handshake ends, and no chunk completes two frames. -/
theorem delivered_iff_oneAtATime (acc : Str → Str) (handler : WsHandler) (m : WebsocketConnManager)
    (fd : Nat) {head : Str} (hh : Handshake head) (fs : List Frame) (chunks : List Str)
    (hflat : chunks.flatten = head ++ frames.stream fs) :
    (∀ pre, pre <+: chunks → Delivered acc handler m fd head fs pre) ↔ OneAtATime head fs chunks := by
  constructor
  · intro h
    have h0 : 0 < head.length := by
      have : head.length - 4 + 4 ≤ head.length := Scan.find_some_le hh.ends
      omega
    have hn : head.length ≤ chunks.flatten.length := by
      rw [hflat, List.length_append]
      omega
    constructor
    · obtain ⟨pre₀, x, post, rfl, hlt, hle⟩ := exists_reaches h0 hn
      exact ⟨pre₀ ++ [x], List.prefix_append _ _, head_alone hh hflat hlt hle (h _ (List.prefix_refl _))⟩
    · intro pre x hpre
      obtain ⟨s, hs, hmsgs⟩ := h pre ((List.prefix_append _ _).trans hpre)
      obtain ⟨s', hs', hmsgs'⟩ := h (pre ++ [x]) hpre
      rw [feed_append, hs] at hs'
      simp only [feed] at hs'
      cases hserve : s.serve acc handler x with
      | error e =>
        rw [hserve] at hs'
        cases hs'
      | ok t =>
        rw [hserve] at hs'
        cases hs'
        have hgrow := serve_messages hserve
        rw [hmsgs, hmsgs'] at hgrow
        have hle := @Framing.complete_le_length _ _ _ _ frames fs
          ((pre ++ [x]).flatten.length - head.length)
        simp only [List.length_map, List.length_take, completed] at hgrow ⊢
        omega
  · intro h pre hpre
    exact delivered_of_oneAtATime hh hflat h hpre

/-- The head of a handshake. -/
def chatHead : Str := str "GET /chat HTTP/1.1\r\nSec-WebSocket-Key: dGhl\r\n\r\n"

theorem chatHead_handshake : Handshake chatHead where
  ends := by decide
  key := by decide

theorem byte_fits (b : UInt8) : [b].length < 2 ^ 63 := by simp

theorem byteMask_length : ([1, 2, 3, 4] : Str).length = 4 := rfl

/-- A frame with a payload of one byte. -/
def byteFrame (b : UInt8) : Frame where
  payload := [b]
  mask := [1, 2, 3, 4]
  mask_length := byteMask_length
  fits := byte_fits b

/-- Two frames, of which the first arrives in two pieces and the second with the end of the first. -/
def chatFrames : List Frame := [byteFrame 97, byteFrame 98]

def chatChunks : List Str :=
  [chatHead, (byteFrame 97).bytes.take 3, (byteFrame 97).bytes.drop 3 ++ (byteFrame 98).bytes.take 2,
    (byteFrame 98).bytes.drop 2]

theorem delivered_iff_oneAtATime_chat :
    chatChunks.flatten = chatHead ++ frames.stream chatFrames ∧
      ((∀ pre, pre <+: chatChunks →
          Delivered id (fun d => [d.msg]) WebsocketConnManager.empty 5 chatHead chatFrames pre) ↔
        OneAtATime chatHead chatFrames chatChunks) :=
  ⟨by decide, delivered_iff_oneAtATime id (fun d => [d.msg]) WebsocketConnManager.empty 5
    chatHead_handshake chatFrames chatChunks (by decide)⟩

/-- Of two frames in one chunk only the first is dispatched, and a frame in the chunk that completes the
    handshake is lost. -/
theorem together_not_delivered :
    Handshake chatHead ∧
      (∃ chunks, chunks.flatten = chatHead ++ frames.stream chatFrames ∧
        (∃ s, (accepted WebsocketConnManager.empty 5).feed id (fun _ => []) chunks = .ok s ∧
          s.messages = [[97]]) ∧
        ¬ ∀ pre, pre <+: chunks →
          Delivered id (fun _ => []) WebsocketConnManager.empty 5 chatHead chatFrames pre) ∧
      ∃ chunks, chunks.flatten = chatHead ++ frames.stream [byteFrame 97] ∧
        (∃ s, (accepted WebsocketConnManager.empty 5).feed id (fun _ => []) chunks = .ok s ∧
          s.messages = []) ∧
        ¬ ∀ pre, pre <+: chunks →
          Delivered id (fun _ => []) WebsocketConnManager.empty 5 chatHead [byteFrame 97] pre := by
  have hrun : ∀ chunks s, (accepted WebsocketConnManager.empty 5).feed id (fun _ => []) chunks = .ok s →
      ∀ fs, s.messages.length < (fs.take (completed chatHead fs chunks.flatten.length)).length →
        ¬ ∀ pre, pre <+: chunks →
          Delivered id (fun _ => []) WebsocketConnManager.empty 5 chatHead fs pre := by
    intro chunks s hs fs hlt h
    obtain ⟨s', hs', hmsgs⟩ := h chunks (List.prefix_refl _)
    rw [hs] at hs'
    cases hs'
    rw [hmsgs, List.length_map] at hlt
    exact Nat.lt_irrefl _ hlt
  refine ⟨chatHead_handshake, ?_, ?_⟩
  · exact ⟨[chatHead, (byteFrame 97).bytes ++ (byteFrame 98).bytes], by decide, ⟨_, rfl, rfl⟩,
      hrun _ _ rfl _ (by decide)⟩
  · exact ⟨[chatHead ++ (byteFrame 97).bytes], by decide, ⟨_, rfl, rfl⟩, hrun _ _ rfl _ (by decide)⟩

end WsStream

end ModularNetServer
