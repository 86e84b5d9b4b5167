import ModularNetServer.Library.Loop
import ModularNetServer.Http.HttpRequest

/-!
# The read side of a connection

`m_read_buf` with `m_read_idx`, the parser's state machine, and `HttpConn::parseHttpRequest` as the
loop it is. The searches are `strstr`, so they see the memory up to the first NUL, whether the
bytes there were received for this request or are left over from lines already removed.
-/

namespace ModularNetServer

open Cxx

/-- `READ_BUFFER_SIZE`. -/
def readBufferSize : Nat := 4096

/-- `m_read_buf` and `m_read_idx`. -/
structure ReadBuffer where
  mem : List UInt8
  idx : Nat
  mem_length : mem.length = readBufferSize
  idx_le : idx ≤ readBufferSize

namespace ReadBuffer

/-- The buffer after `memset`. -/
def empty : ReadBuffer where
  mem := List.replicate readBufferSize 0
  idx := 0
  mem_length := List.length_replicate
  idx_le := Nat.zero_le _

/-- The received bytes that no line has consumed yet: `m_read_buf[0..m_read_idx)`. -/
def pending (b : ReadBuffer) : Str := b.mem.take b.idx

/-- `strstr(m_read_buf, pattern)`, as an offset. Past the end of the array the language gives the
    search no meaning; it ends there here. -/
def strstr (b : ReadBuffer) (pattern : Str) : Option Nat :=
  Scan.find pattern (Scan.upTo 0 b.mem)

/-- What `recv(m_sockfd, m_read_buf + m_read_idx, READ_BUFFER_SIZE - m_read_idx, 0)` does with
    bytes waiting in the socket, followed by `m_read_idx += bytes_read`. -/
def receive (b : ReadBuffer) (bytes : Str) : ReadBuffer where
  mem := b.mem.take b.idx ++ bytes.take (readBufferSize - b.idx) ++
    b.mem.drop (b.idx + (bytes.take (readBufferSize - b.idx)).length)
  idx := b.idx + (bytes.take (readBufferSize - b.idx)).length
  mem_length := by
    have h1 := b.mem_length
    have h2 := b.idx_le
    simp only [List.length_append, List.length_take, List.length_drop]
    omega
  idx_le := by
    have := b.idx_le
    simp only [List.length_take]
    omega

/-- `removeLine`. -/
def removeLine (b : ReadBuffer) (len : Nat) : ReadBuffer :=
  if b.idx ≤ len then
    { mem := b.mem.set 0 0
      idx := 0
      mem_length := by rw [List.length_set]; exact b.mem_length
      idx_le := Nat.zero_le _ }
  else
    { mem := ((b.mem.drop len).take (b.idx - len) ++ b.mem.drop (b.idx - len)).set (b.idx - len) 0
      idx := b.idx - len
      mem_length := by
        have h1 := b.mem_length
        have h2 := b.idx_le
        simp only [List.length_set, List.length_append, List.length_take, List.length_drop]
        omega
      idx_le := by have := b.idx_le; omega }

end ReadBuffer

/-- `HttpConn::ParseState`. -/
inductive ParseState
  | requestLine
  | headers
  | body
  | done
  deriving DecidableEq

/-- The position of a state in the order in which they follow each other. -/
def ParseState.rank : ParseState → Nat
  | requestLine => 0
  | headers => 1
  | body => 2
  | done => 3

/-- The fields of `HttpConn` that receiving and parsing a request use. -/
structure ReadSide where
  readBuf : ReadBuffer
  parseState : ParseState
  httpBase : HttpBase

namespace ReadSide

/-- The read side as `HttpConn::init` leaves it. -/
def init (ip : Str) : ReadSide where
  readBuf := ReadBuffer.empty
  parseState := .requestLine
  httpBase := HttpBase.init ip

/-- A `recv` that delivers the given bytes. -/
def receive (c : ReadSide) (bytes : Str) : ReadSide := { c with readBuf := c.readBuf.receive bytes }

/-- The end of a line. -/
def crlf : Str := [13, 10]

/-- One pass of the loops of `parseHttpRequest`: a state of the outer loop, except that the inner
    loop over the header lines makes one pass a line. -/
def parseStep (parseJson : Str → Option Json) (c : ReadSide) :
    Except Escape (Loop.Pass ReadSide (Bool × ReadSide)) :=
  match c.parseState with
  | .requestLine =>
    match c.readBuf.strstr crlf with
    | none => .ok (.exit (false, c))
    | some pos =>
      match HttpRequest.parseRequestLine (c.readBuf.mem.take pos) c.httpBase with
      | none => .ok (.exit (false, c))
      | some base => .ok (.next ⟨c.readBuf.removeLine (pos + 2), .headers, base⟩)
  | .headers =>
    match c.readBuf.strstr crlf with
    | none => .ok (.exit (false, c))
    | some pos =>
      match HttpRequest.parseHeaders (c.readBuf.mem.take pos) c.httpBase with
      | .error e => .error e
      | .ok (true, base) => .ok (.next ⟨c.readBuf.removeLine (pos + 2), .headers, base⟩)
      | .ok (false, base) => .ok (.next ⟨c.readBuf.removeLine (pos + 2), .body, base⟩)
  | .body =>
    let contentLength := c.httpBase.contentLength
    if (c.readBuf.idx : Int) < contentLength then .ok (.exit (false, c))
    else
      match HttpRequest.parseBody parseJson c.readBuf.mem contentLength c.httpBase with
      | .error e => .error e
      | .ok base => .ok (.next ⟨c.readBuf.removeLine contentLength.toNat, .done, base⟩)
  | .done => .ok (.exit (true, c))

/-- The measure of the parsing loops: the states still to come, then the length of the string that
    the next search sees. -/
def parseMeasure (c : ReadSide) : Nat :=
  (3 - c.parseState.rank) * (readBufferSize + 1) + (Scan.upTo 0 c.readBuf.mem).length

end ReadSide

/-! ## What receiving and removing do to the buffer -/

namespace ReadBuffer

/-- A NUL stands right after the received bytes. -/
def Terminated (b : ReadBuffer) : Prop := b.mem[b.idx]? = some 0

theorem pending_length (b : ReadBuffer) : b.pending.length = b.idx := by
  have h1 := b.mem_length
  have h2 := b.idx_le
  simp only [pending, List.length_take]
  omega

theorem pending_prefix (b : ReadBuffer) : b.pending <+: b.mem := List.take_prefix _ _

@[simp] theorem pending_empty : empty.pending = [] := rfl

/-- The bytes that a `recv` delivers are appended to the pending ones. -/
theorem pending_receive (b : ReadBuffer) (bytes : Str) :
    (b.receive bytes).pending = b.pending ++ bytes.take (readBufferSize - b.idx) := by
  have h : (b.mem.take b.idx).length = b.idx := b.pending_length
  unfold pending receive
  rw [List.take_append_of_le_length (by rw [List.length_append, h])]
  rw [List.take_of_length_le (by rw [List.length_append, h])]

theorem pending_receive_of_le {b : ReadBuffer} {bytes : Str}
    (h : b.idx + bytes.length ≤ readBufferSize) :
    (b.receive bytes).pending = b.pending ++ bytes := by
  rw [pending_receive, List.take_of_length_le (by omega)]

/-- What a search sees of a terminated buffer are received bytes only. -/
theorem Terminated.visible {b : ReadBuffer} (h : b.Terminated) :
    Scan.upTo 0 b.mem = Scan.upTo 0 b.pending := by
  have hlt : b.idx < b.mem.length := (List.getElem?_eq_some_iff.mp h).1
  have hget : b.mem[b.idx] = 0 := (List.getElem?_eq_some_iff.mp h).2
  have hmem : b.mem = b.pending ++ 0 :: b.mem.drop (b.idx + 1) := by
    have hd := List.drop_eq_getElem_cons hlt
    rw [hget] at hd
    rw [← hd]
    exact (List.take_append_drop _ _).symm
  conv_lhs => rw [hmem]
  exact Scan.upTo_append_terminator 0 _ _

theorem visible_le (b : ReadBuffer) : (Scan.upTo 0 b.mem).length ≤ readBufferSize := by
  have := Scan.upTo_length_le 0 b.mem
  rwa [b.mem_length] at this

theorem pending_removeLine (b : ReadBuffer) (len : Nat) :
    (b.removeLine len).pending = b.pending.drop len := by
  have hlen := b.pending_length
  unfold removeLine
  split_ifs with h
  · rw [List.drop_eq_nil_of_le (by omega)]
    rfl
  · have h1 := b.mem_length
    have h2 := b.idx_le
    have htake : ((b.mem.drop len).take (b.idx - len)).length = b.idx - len := by
      simp only [List.length_take, List.length_drop]
      omega
    simp only [pending]
    rw [List.take_set_of_le (le_refl _), List.take_append_of_le_length (by omega),
      List.take_of_length_le (by omega), List.drop_take]

theorem removeLine_idx_le (b : ReadBuffer) (len : Nat) : (b.removeLine len).idx ≤ b.idx := by
  unfold removeLine
  split_ifs
  · exact Nat.zero_le _
  · exact Nat.sub_le _ _

theorem receive_idx_le (b : ReadBuffer) (bytes : Str) :
    (b.receive bytes).idx ≤ b.idx + bytes.length := by
  simp only [receive, List.length_take]
  omega

/-- Removing a line leaves the buffer terminated. -/
theorem removeLine_terminated (b : ReadBuffer) {len : Nat} (hlen : 0 < len) :
    (b.removeLine len).Terminated := by
  have h1 := b.mem_length
  have h2 := b.idx_le
  have h3 : 0 < readBufferSize := by decide
  unfold removeLine Terminated
  split_ifs with h
  · exact List.getElem?_set_self (by omega)
  · refine List.getElem?_set_self ?_
    simp only [List.length_append, List.length_take, List.length_drop]
    omega

/-- Removing a line shortens what the next search sees. -/
theorem visible_removeLine_lt {b : ReadBuffer} {len : Nat} (h0 : 0 < len)
    (hlen : len ≤ (Scan.upTo 0 b.mem).length) :
    (Scan.upTo 0 (b.removeLine len).mem).length < (Scan.upTo 0 b.mem).length := by
  rw [(b.removeLine_terminated h0).visible, pending_removeLine]
  obtain ⟨r, hr⟩ := b.pending_prefix
  have hd : b.pending.drop len <+: b.mem.drop len := List.IsPrefix.drop b.pending_prefix len
  obtain ⟨s, hs⟩ := hd
  have hle : (Scan.upTo 0 (b.pending.drop len)).length ≤ (Scan.upTo 0 (b.mem.drop len)).length := by
    rw [← hs]
    exact (Scan.upTo_append_prefix 0 _ s).length_le
  rw [Scan.upTo_drop hlen, List.length_drop] at hle
  omega

theorem strstr_le {b : ReadBuffer} {pos : Nat} (h : b.strstr [13, 10] = some pos) :
    pos + 2 ≤ (Scan.upTo 0 b.mem).length := Scan.find_some_le h

end ReadBuffer

namespace ReadSide

variable {parseJson : Str → Option Json} {c c' : ReadSide} {b : Bool}

/-- What a pass that goes on has found and done, state by state. -/
theorem parseStep_next_cases (h : parseStep parseJson c = .ok (.next c')) :
    (c.parseState = .requestLine ∧ ∃ pos base, c.readBuf.strstr crlf = some pos ∧
      HttpRequest.parseRequestLine (c.readBuf.mem.take pos) c.httpBase = some base ∧
      c' = ⟨c.readBuf.removeLine (pos + 2), .headers, base⟩) ∨
    (c.parseState = .headers ∧ ∃ pos more base, c.readBuf.strstr crlf = some pos ∧
      HttpRequest.parseHeaders (c.readBuf.mem.take pos) c.httpBase = .ok (more, base) ∧
      c' = ⟨c.readBuf.removeLine (pos + 2), if more then .headers else .body, base⟩) ∨
    (c.parseState = .body ∧ c.httpBase.contentLength ≤ c.readBuf.idx ∧ ∃ base,
      HttpRequest.parseBody parseJson c.readBuf.mem c.httpBase.contentLength c.httpBase = .ok base ∧
      c' = ⟨c.readBuf.removeLine c.httpBase.contentLength.toNat, .done, base⟩) := by
  unfold parseStep at h
  split at h
  · rename_i hstate
    split at h
    · cases h
    · rename_i pos hpos
      split at h <;> cases h
      rename_i base hline
      exact .inl ⟨hstate, pos, base, hpos, hline, rfl⟩
  · rename_i hstate
    split at h
    · cases h
    · rename_i pos hpos
      split at h <;> cases h
      · rename_i base hline
        exact .inr (.inl ⟨hstate, pos, true, base, hpos, hline, rfl⟩)
      · rename_i base hline
        exact .inr (.inl ⟨hstate, pos, false, base, hpos, hline, rfl⟩)
  · rename_i hstate
    dsimp only at h
    split at h
    · cases h
    · rename_i hreceived
      split at h <;> cases h
      rename_i base hbody
      exact .inr (.inr ⟨hstate, not_lt.mp hreceived, base, hbody, rfl⟩)
  · cases h

/-- A pass that leaves the loops changes nothing. It answers true when the parser is done, and while it waits
    for a body some of it is still missing. -/
theorem parseStep_exit (h : parseStep parseJson c = .ok (.exit (b, c'))) :
    c' = c ∧ (b = true ↔ c.parseState = .done) ∧
      (c.parseState = .body → (c.readBuf.idx : Int) < c.httpBase.contentLength) := by
  unfold parseStep at h
  split at h
  · rename_i hstate
    split at h
    · cases h
      simp [hstate]
    · split at h <;> cases h
      simp [hstate]
  · rename_i hstate
    split at h
    · cases h
      simp [hstate]
    · split at h <;> cases h
  · rename_i hstate
    dsimp only at h
    split at h
    · rename_i hmissing
      cases h
      simp [hstate, hmissing]
    · split at h <;> cases h
  · rename_i hstate
    cases h
    simp [hstate]

/-- The two loops of `parseHttpRequest` end: a pass moves on to a later state, or shortens the
    string at the start of the buffer. -/
theorem parseStep_decreases (parseJson : Str → Option Json) :
    Loop.Decreases (parseStep parseJson) parseMeasure := by
  intro c c' h
  have hv := c.readBuf.visible_le
  have hv' := c'.readBuf.visible_le
  unfold parseMeasure
  rcases parseStep_next_cases h with ⟨hstate, pos, base, hpos, -, rfl⟩ |
    ⟨hstate, pos, more, base, hpos, -, rfl⟩ | ⟨hstate, -, base, -, rfl⟩
  · simp only [hstate, ParseState.rank] at hv' ⊢
    omega
  · have hlt := @ReadBuffer.visible_removeLine_lt c.readBuf (pos + 2) (by omega) (ReadBuffer.strstr_le hpos)
    cases more with
    | true =>
      simp only [hstate, if_true, ParseState.rank]
      omega
    | false =>
      simp only [hstate, Bool.false_eq_true, if_false, ParseState.rank]
      omega
  · simp only [hstate, ParseState.rank] at hv' ⊢
    omega

/-- `HttpConn::parseHttpRequest`. -/
def parseHttpRequest (parseJson : Str → Option Json) (c : ReadSide) :
    Except Escape (Bool × ReadSide) :=
  Loop.eval (parseStep parseJson) parseMeasure (parseStep_decreases parseJson) c

/-- A call returns in a state that it has come to. -/
theorem parseHttpRequest_ok (h : c.parseHttpRequest parseJson = .ok (b, c')) :
    Loop.Reaches (parseStep parseJson) c c' ∧ parseStep parseJson c' = .ok (.exit (b, c')) := by
  obtain ⟨d, hreach, hend⟩ := @Loop.eval_ends _ _ _ _ _ (parseStep_decreases parseJson) c
  unfold parseHttpRequest at h
  rw [h] at hend
  obtain ⟨rfl, -⟩ := parseStep_exit hend
  exact ⟨hreach, hend⟩

/-- `parseHttpRequest` after each of a list of `recv` results; the answer of the last call. -/
def feed (parseJson : Str → Option Json) (c : ReadSide) : List Str → Except Escape (Bool × ReadSide)
  | [] => .ok (false, c)
  | [chunk] => parseHttpRequest parseJson (c.receive chunk)
  | chunk :: chunk' :: chunks =>
    match parseHttpRequest parseJson (c.receive chunk) with
    | .error e => .error e
    | .ok (_, c) => feed parseJson c (chunk' :: chunks)

end ReadSide

end ModularNetServer
