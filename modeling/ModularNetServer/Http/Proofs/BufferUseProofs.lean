import ModularNetServer.Http.BufferUse

/-!
# The read buffer is used safely

`init` and `removeLine` put a NUL right after the received bytes, `read` does not. So the first search of a
parse is safe where one happens to be there. The other searches of the parse follow a `removeLine`. That
`removeLine(0)` does not put its NUL behind a full array takes an invariant: a parse that finds a body of no
bytes has just removed the line before it, and does not return until it has removed the body too.
-/

namespace ModularNetServer

open Cxx

namespace ReadBuffer

variable {b : ReadBuffer} {pos : Nat}

theorem removeLine_idx_lt (b : ReadBuffer) {len : Nat} (hlen : 0 < len) :
    (b.removeLine len).idx < readBufferSize := by
  have := b.idx_le
  have hsize : readBufferSize = 4096 := rfl
  unfold removeLine
  split <;> dsimp only <;> omega

theorem Terminated.visible_prefix (h : b.Terminated) : Scan.upTo 0 b.mem <+: b.pending := by
  rw [h.visible]
  exact List.takeWhile_prefix _

/-- A line that a terminated buffer contains has been received. -/
theorem Terminated.line_le (h : b.Terminated) (hpos : b.strstr ReadSide.crlf = some pos) :
    pos + 2 ≤ b.idx := by
  have hle := strstr_le hpos
  have hlen := h.visible_prefix.length_le
  rw [b.pending_length] at hlen
  exact hle.trans hlen

theorem safe_room (b : ReadBuffer) : b.room.Safe := by
  have := b.idx_le
  simp only [room, BufferUse.Safe]
  omega

theorem safe_print (b : ReadBuffer) : b.print.Safe := by
  have := b.idx_le
  simp only [print, BufferUse.Safe]
  omega

/-- What `removeLine` does with received bytes is safe, unless it puts its NUL behind a full array. -/
theorem safe_removeUses {len : Int} (h0 : 0 ≤ len) (hlen : len ≤ b.idx)
    (hroom : 0 < len ∨ b.idx < readBufferSize) : ∀ u ∈ b.removeUses len, u.Safe := by
  have hidx := b.idx_le
  have hsize : readBufferSize = 4096 := rfl
  intro u hu
  rcases List.mem_cons.mp hu with rfl | hu
  · exact ⟨h0, hlen⟩
  · split at hu
    · obtain rfl := List.mem_singleton.mp hu
      simp only [BufferUse.Safe]
      omega
    · simp only [List.mem_cons, List.not_mem_nil, or_false] at hu
      rcases hu with rfl | rfl | rfl <;> simp only [BufferUse.Safe] <;> omega

/-- When a `recv` leaves a NUL right after the received bytes. -/
theorem terminated_receive_iff (b : ReadBuffer) (bytes : Str) :
    (b.receive bytes).Terminated ↔
      b.mem[b.idx + (bytes.take (readBufferSize - b.idx)).length]? = some 0 := by
  have hlen : (b.mem.take b.idx ++ bytes.take (readBufferSize - b.idx)).length =
      b.idx + (bytes.take (readBufferSize - b.idx)).length := by
    rw [List.length_append]
    exact congrArg (· + _) b.pending_length
  unfold Terminated
  show (b.mem.take b.idx ++ bytes.take (readBufferSize - b.idx) ++ b.mem.drop _)[_]? = some 0 ↔ _
  rw [List.getElem?_append_right (by rw [hlen]; exact le_refl _), hlen, List.getElem?_drop]
  simp [receive]

end ReadBuffer

namespace ReadSide

variable {parseJson : Str → Option Json} {c c' : ReadSide}

/-- A search finds the end of what was received. -/
def SearchesMarked (c : ReadSide) : Prop := c.Searches → c.readBuf.Terminated

/-- What a pass finds: the end of what was received where it searches, and room for a NUL where it removes
    a body of no bytes. -/
structure PassReady (c : ReadSide) : Prop where
  marked : c.SearchesMarked
  body : c.parseState = .body → 0 < c.httpBase.contentLength ∨ c.readBuf.idx < readBufferSize

/-- A pass removes at least the end of a line before the next search, or before the body. -/
theorem PassReady.parseStep (h : parseStep parseJson c = .ok (.next c')) : c'.PassReady := by
  rcases parseStep_next_cases h with ⟨-, pos, base, -, -, rfl⟩ | ⟨-, pos, more, base, -, -, rfl⟩ |
    ⟨-, -, base, -, rfl⟩
  · exact ⟨fun _ => c.readBuf.removeLine_terminated (by omega), by simp⟩
  · exact ⟨fun _ => c.readBuf.removeLine_terminated (by omega),
      fun _ => .inr (c.readBuf.removeLine_idx_lt (by omega))⟩
  · exact ⟨by simp [SearchesMarked, Searches], by simp⟩

theorem nonneg_of_parseBody {readBuf : Str} {len : Int} {base base' : HttpBase}
    (h : HttpRequest.parseBody parseJson readBuf len base = .ok base') : 0 ≤ len := by
  unfold HttpRequest.parseBody at h
  split at h
  · cases h
  · omega

/-- A line that a search has found is copied and removed safely. -/
theorem safe_line {pos : Nat} (h : c.readBuf.Terminated) (hpos : c.readBuf.strstr crlf = some pos) :
    BufferUse.Safe (.access 0 pos) ∧ ∀ u ∈ c.readBuf.removeUses (pos + 2), u.Safe := by
  have hle := h.line_le hpos
  have hidx := c.readBuf.idx_le
  refine ⟨?_, ReadBuffer.safe_removeUses (by omega) (by omega) (by omega)⟩
  simp only [BufferUse.Safe]
  omega

/-- What such a pass does is safe. -/
theorem safe_passUses (h : c.PassReady) : ∀ u ∈ passUses parseJson c, u.Safe := by
  intro u hu
  unfold passUses at hu
  split at hu
  · rename_i hstate
    have hend : c.readBuf.Terminated := h.marked (.inl hstate)
    rcases List.mem_cons.mp hu with rfl | hu
    · exact ⟨hend, hend.visible_prefix⟩
    · split at hu
      · cases hu
      · rename_i pos hpos
        obtain ⟨hcopy, hremove⟩ := safe_line hend hpos
        rcases List.mem_cons.mp hu with rfl | hu
        · exact hcopy
        · split at hu
          · cases hu
          · exact hremove u hu
  · rename_i hstate
    have hend : c.readBuf.Terminated := h.marked (.inr hstate)
    rcases List.mem_cons.mp hu with rfl | hu
    · exact ⟨hend, hend.visible_prefix⟩
    · split at hu
      · cases hu
      · rename_i pos hpos
        obtain ⟨hcopy, hremove⟩ := safe_line hend hpos
        rcases List.mem_cons.mp hu with rfl | hu
        · exact hcopy
        · exact hremove u hu
  · rename_i hstate
    dsimp only at hu
    split at hu
    · cases hu
    · rename_i hreceived
      split at hu
      · cases hu
      · rename_i base hbody
        have hlen := nonneg_of_parseBody hbody
        have hidx := c.readBuf.idx_le
        rcases List.mem_cons.mp hu with rfl | hu
        · simp only [BufferUse.Safe]
          omega
        · exact ReadBuffer.safe_removeUses hlen (by omega) (h.body hstate) u hu
  · cases hu

/-- The first search of a parse. -/
theorem strstr_mem_parseUses (h : c.Searches) : .strstr c.readBuf ∈ parseUses parseJson c := by
  have hpass : .strstr c.readBuf ∈ passUses parseJson c := by
    rcases h with h | h <;> simp only [passUses, h] <;> exact List.mem_cons_self
  exact List.mem_append_left _ hpass

/-- A parse waits for a body only if it has bytes. -/
def WaitsForBody (c : ReadSide) : Prop := c.parseState = .body → 0 < c.httpBase.contentLength

/-- A parse uses the buffer safely if its first search does. -/
theorem safe_parseUses (hmarked : c.SearchesMarked) (hbody : c.WaitsForBody) :
    ∀ u ∈ parseUses parseJson c, u.Safe := by
  have hready : c.PassReady := ⟨hmarked, fun hstate => .inl (hbody hstate)⟩
  exact Loop.trace_forall (fun _ _ _ hnext => .parseStep hnext) (fun _ hc => safe_passUses hc) hready

theorem marked_of_safe (h : ∀ u ∈ parseUses parseJson c, u.Safe) : c.SearchesMarked :=
  fun hs => (h _ (strstr_mem_parseUses hs)).1

theorem waitsForBody_of_exit {done : Bool} (h : parseStep parseJson c = .ok (.exit (done, c'))) :
    c'.WaitsForBody := by
  obtain ⟨rfl, -, hmissing⟩ := parseStep_exit h
  intro hstate
  have := hmissing hstate
  omega

/-- Where a parse returns, it waits, or is over; and if its first search was safe, so is the next. -/
theorem parseHttpRequest_returns {done : Bool} (hparse : c.parseHttpRequest parseJson = .ok (done, c')) :
    c'.WaitsForBody ∧ (c.PassReady → c'.SearchesMarked) := by
  obtain ⟨hreach, hexit⟩ := parseHttpRequest_ok hparse
  refine ⟨waitsForBody_of_exit hexit, fun hready => ?_⟩
  have hlast : c'.PassReady := hreach.invariant (fun _ _ _ hpass => .parseStep hpass) hready
  exact hlast.marked

end ReadSide

namespace HttpConn

variable {mode : TrigMode} {parseJson : Str → Option Json} {c c' : HttpConn} {call : BufferCall}
  {results : List RecvResult}

theorem safe_recvOnceUses (b : ReadBuffer) (results : List RecvResult) :
    ∀ u ∈ recvOnceUses b results, u.Safe := by
  intro u hu
  unfold recvOnceUses at hu
  split at hu
  · simp only [List.mem_cons, List.not_mem_nil, or_false] at hu
    rcases hu with rfl | rfl
    · exact b.safe_room
    · exact ReadBuffer.safe_print _
  · obtain rfl := List.mem_singleton.mp hu
    exact b.safe_room

theorem safe_recvAllUses (b : ReadBuffer) (results : List RecvResult) :
    ∀ u ∈ recvAllUses b results, u.Safe := by
  have hend : ∀ b : ReadBuffer, ∀ u ∈ [b.room, b.print], u.Safe := by
    intro b u hu
    simp only [List.mem_cons, List.not_mem_nil, or_false] at hu
    rcases hu with rfl | rfl
    · exact b.safe_room
    · exact b.safe_print
  have hroom : ∀ b : ReadBuffer, ∀ u ∈ [b.room], u.Safe := by
    intro b u hu
    obtain rfl := List.mem_singleton.mp hu
    exact b.safe_room
  induction results generalizing b with
  | nil => exact hend b
  | cons result results ih =>
    cases result with
    | received first rest =>
      intro u hu
      rcases List.mem_cons.mp hu with rfl | hu
      · exact b.safe_room
      · split at hu
        · obtain rfl := List.mem_singleton.mp hu
          exact ReadBuffer.safe_print _
        · exact ih _ u hu
    | again => exact hend b
    | failed => exact hroom b
    | eof => exact hroom b

theorem safe_readUses (mode : TrigMode) (c : HttpConn) (results : List RecvResult) :
    ∀ u ∈ c.readUses mode results, u.Safe := by
  unfold readUses
  split
  · simp
  · cases mode with
    | LT => exact safe_recvOnceUses c.readBuf results
    | ET => exact safe_recvAllUses c.readBuf results

/-! ## Calls -/

theorem parseState_read (mode : TrigMode) (c : HttpConn) (results : List RecvResult) :
    (c.read mode results).2.toReadSide.parseState = c.parseState ∧
      (c.read mode results).2.toReadSide.httpBase = c.httpBase := by
  have hall : ∀ (c : HttpConn), (c.recvAll results).2.parseState = c.parseState ∧
      (c.recvAll results).2.httpBase = c.httpBase := by
    induction results with
    | nil => exact fun _ => ⟨rfl, rfl⟩
    | cons result results ih =>
      intro c
      cases result with
      | received first rest =>
        simp only [recvAll]
        split
        · exact ⟨rfl, rfl⟩
        · exact ih _
      | again => exact ⟨rfl, rfl⟩
      | failed => exact ⟨rfl, rfl⟩
      | eof => exact ⟨rfl, rfl⟩
  unfold read
  split
  · exact ⟨rfl, rfl⟩
  · cases mode with
    | LT =>
      show (recvOnce c results).2.parseState = _ ∧ (recvOnce c results).2.httpBase = _
      unfold recvOnce
      split <;> exact ⟨rfl, rfl⟩
    | ET => exact hall c

theorem waitsForBody_bufferStep (h : c.WaitsForBody) (hr : c.bufferStep mode parseJson call = some c') :
    c'.WaitsForBody := by
  cases call with
  | init sockfd ip =>
    simp only [bufferStep] at hr
    split at hr <;> cases hr <;> exact fun hstate => by cases hstate
  | read results =>
    cases hr
    obtain ⟨hstate, hbase⟩ := parseState_read mode c results
    unfold ReadSide.WaitsForBody
    rw [hstate, hbase]
    exact h
  | parseHttpRequest =>
    simp only [bufferStep] at hr
    split at hr
    · cases hr
    · rename_i done side hparse
      cases hr
      exact (ReadSide.parseHttpRequest_returns hparse).1

theorem waitsForBody_fresh (sockfd : Int) (ip : Str) : (fresh sockfd ip).WaitsForBody :=
  fun hstate => by cases hstate

/-- What one call does with the buffer. -/
theorem usesSafely_of_endMarked (h : c.WaitsForBody) (hmarked : c.EndMarked call) :
    c.UsesSafely mode parseJson call := by
  cases call with
  | init sockfd ip =>
    intro u hu
    obtain rfl := List.mem_singleton.mp hu
    simp only [BufferUse.Safe]
    omega
  | read results => exact safe_readUses mode c results
  | parseHttpRequest => exact ReadSide.safe_parseUses hmarked h

theorem endMarked_of_usesSafely (h : c.UsesSafely mode parseJson call) : c.EndMarked call := by
  cases call with
  | init sockfd ip => trivial
  | read results => trivial
  | parseHttpRequest => exact ReadSide.marked_of_safe h

/-- Whatever is called in whatever order, all uses of the buffer are safe if and only if each parse that
    begins with a search finds `m_read_idx` inside the array and a NUL there. -/
theorem meets_usesSafely_iff (mode : TrigMode) (parseJson : Str → Option Json) (sockfd : Int) (ip : Str)
    (calls : List BufferCall) :
    Transition.Meets (bufferStep mode parseJson) (UsesSafely mode parseJson) (fresh sockfd ip) calls ↔
      Transition.Meets (bufferStep mode parseJson) EndMarked (fresh sockfd ip) calls := by
  have hcall : ∀ (c : HttpConn) call, c.WaitsForBody →
      (c.UsesSafely mode parseJson call ↔ c.EndMarked call) :=
    fun c call h => ⟨endMarked_of_usesSafely, usesSafely_of_endMarked h⟩
  have hstep : ∀ (c : HttpConn) call c', c.WaitsForBody → c.EndMarked call →
      c.bufferStep mode parseJson call = some c' → c'.WaitsForBody :=
    fun c call c' h _ hr => waitsForBody_bufferStep h hr
  exact Transition.meets_congr hcall hstep (waitsForBody_fresh sockfd ip) calls

/-- The request line arrives with the first two letters of a header, and then one letter more. -/
def splitHeader : List BufferCall :=
  [.read [.received 71 (str "ET / HTTP/1.1\r\nHo")], .parseHttpRequest, .read [.received 115 []],
    .parseHttpRequest]

/-- What is left over of the request line makes a line with these three letters, longer than what was
    received. -/
theorem splitHeader_unsafe :
    (Transition.run (bufferStep .LT fun _ => none) (fresh 5 (str "10.0.0.1")) splitHeader).isSome = true ∧
      ¬ Transition.Meets (bufferStep .LT fun _ => none) (UsesSafely .LT fun _ => none)
        (fresh 5 (str "10.0.0.1")) splitHeader := by
  refine ⟨by decide +kernel, fun h => ?_⟩
  have hmarked := Transition.meets_mono (fun _ _ => endMarked_of_usesSafely) h
  revert hmarked
  decide +kernel

/-! ## Reads that leave a NUL -/

/-- What the calls keep, as long as reads leave a NUL. -/
structure Marked (c : HttpConn) : Prop where
  marked : c.SearchesMarked
  body : c.WaitsForBody

theorem Marked.fresh (sockfd : Int) (ip : Str) : Marked (fresh sockfd ip) :=
  ⟨fun _ => rfl, waitsForBody_fresh sockfd ip⟩

theorem Marked.bufferStep (h : Marked c) (hread : c.LeavesEnd mode call)
    (hr : c.bufferStep mode parseJson call = some c') : Marked c' := by
  refine ⟨?_, waitsForBody_bufferStep h.body hr⟩
  cases call with
  | init sockfd ip =>
    simp only [HttpConn.bufferStep] at hr
    split at hr <;> cases hr <;> exact fun _ => rfl
  | read results =>
    cases hr
    intro hs
    rw [ReadSide.Searches, (parseState_read mode c results).1] at hs
    exact hread hs
  | parseHttpRequest =>
    simp only [HttpConn.bufferStep] at hr
    split at hr
    · cases hr
    · rename_i done side hparse
      cases hr
      exact (ReadSide.parseHttpRequest_returns hparse).2 ⟨h.marked, fun hstate => .inl (h.body hstate)⟩

/-- Where every read before a search leaves a NUL right after the received bytes, all uses are safe. -/
theorem meets_usesSafely_of_leavesEnd {calls : List BufferCall} {sockfd : Int} {ip : Str}
    (h : Transition.Meets (bufferStep mode parseJson) (LeavesEnd mode) (HttpConn.fresh sockfd ip) calls) :
    Transition.Meets (bufferStep mode parseJson) (UsesSafely mode parseJson) (HttpConn.fresh sockfd ip)
      calls := by
  have hcall : ∀ c call, Marked c →
      (c.LeavesEnd mode call ∧ c.UsesSafely mode parseJson call ↔ c.LeavesEnd mode call) := by
    refine fun c call hc => and_iff_left (usesSafely_of_endMarked hc.body ?_)
    cases call with
    | init sockfd ip => trivial
    | read results => trivial
    | parseHttpRequest => exact hc.marked
  have hstep : ∀ c call c', Marked c → c.LeavesEnd mode call →
      c.bufferStep mode parseJson call = some c' → Marked c' :=
    fun c call c' hc hread hr => hc.bufferStep hread hr
  have hboth := (Transition.meets_congr hcall hstep (.fresh sockfd ip) calls).mpr h
  exact Transition.meets_mono (fun _ _ hc => hc.2) hboth

end HttpConn

end ModularNetServer
