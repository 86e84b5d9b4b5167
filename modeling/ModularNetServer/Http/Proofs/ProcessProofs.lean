import ModularNetServer.Http.Proofs.PipelineProofs
import ModularNetServer.Http.Proofs.ResponseProofs

/-!
# What a `process` call comes to

The call is limited, ends with an incomplete request, or handles a request. A connection from which a
request is still to come has no file and an empty response, unless its last response did not fit the
write buffer: then the parser is still done.
-/

namespace ModularNetServer

open Cxx

namespace ReadSide

variable {parseJson : Str → Option Json} {c side : ReadSide} {b : Bool}

/-- A call returns true exactly if the parser is done. -/
theorem parse_done_iff (h : parseHttpRequest parseJson c = .ok (b, side)) :
    b = true ↔ side.parseState = .done := (parseStep_exit (parseHttpRequest_ok h).2).2.1

/-- A parser that is done stays as it is. -/
theorem parse_of_done (h : c.parseState = .done) : parseHttpRequest parseJson c = .ok (true, c) := by
  rw [parseHttpRequest]
  exact Loop.eval_exit (by simp only [parseStep, h])

end ReadSide

namespace HttpConn

variable {env : Environment} {w w' : World} {c c' : HttpConn} {b : Bool}

/-- The shared state and the connection with which a `process` call handles a request; there is none if the
    address is limited or the request is not complete. -/
def admitted (env : Environment) (w : World) (c : HttpConn) : Option (World × HttpConn) :=
  let (limited, w) := w.isLimit (str "access_ip") c.ip
  if limited then none
  else
    match ReadSide.parseHttpRequest env.parseJson c.toReadSide with
    | .ok (true, side) => some (w, { c with toReadSide := side })
    | _ => none

/-- A limited call answers 429, an incomplete request is kept, and a complete one is handled. -/
theorem process_cases (h : process env w c = .ok (b, w', c')) :
    (admitted env w c = none ∧ b = true ∧ w' = (w.isLimit (str "access_ip") c.ip).2 ∧
        ∃ r, c.httpResponse.sendRESTfulJson c.httpBase.keepAlive 429 (str "Too Many Requests") .null = .ok r ∧
          c' = (copyResponseData { c with httpResponse := r }).2) ∨
      (admitted env w c = none ∧ b = false ∧ w' = (w.isLimit (str "access_ip") c.ip).2 ∧
        ∃ side, ReadSide.parseHttpRequest env.parseJson c.toReadSide = .ok (false, side) ∧
          c' = { c with toReadSide := side }) ∨
      ∃ side w2, ReadSide.parseHttpRequest env.parseJson c.toReadSide = .ok (true, side) ∧
        admitted env w c = some ((w.isLimit (str "access_ip") c.ip).2, { c with toReadSide := side }) ∧
        handleRequest env (w.isLimit (str "access_ip") c.ip).2 { c with toReadSide := side } =
          .ok (b, w2, c') ∧
        w' = if b then w2.refreshSession (HttpRequest.getRequestCookie c'.httpBase (str "session_id"))
          else w2 := by
  unfold process at h
  unfold admitted
  generalize w.isLimit (str "access_ip") c.ip = limit at h ⊢
  obtain ⟨limited, w1⟩ := limit
  dsimp only at h ⊢
  by_cases hl : limited = true
  · rw [if_pos hl] at h ⊢
    left
    rcases hr : c.httpResponse.sendRESTfulJson c.httpBase.keepAlive 429 (str "Too Many Requests") .null
      with e | r
    · rw [hr] at h
      cases h
    · rw [hr] at h
      cases h
      exact ⟨rfl, rfl, rfl, r, rfl, rfl⟩
  · rw [if_neg hl] at h ⊢
    right
    rcases hparse : ReadSide.parseHttpRequest env.parseJson c.toReadSide with e | ⟨_ | _, side⟩
    all_goals simp only [hparse] at h
    · cases h
    · cases h
      exact .inl ⟨rfl, rfl, rfl, side, rfl, rfl⟩
    · right
      refine ⟨side, ?_⟩
      rcases hreq : handleRequest env w1 { c with toReadSide := side } with e | ⟨_ | _, w2, c2⟩
      all_goals simp only [hreq] at h
      · cases h
      · cases h
        exact ⟨_, rfl, rfl, rfl, rfl⟩
      · cases h
        exact ⟨_, rfl, rfl, rfl, rfl⟩

/-- A request that is handled: what is done with it, and then the copying of what has been built or the
    file. -/
theorem handleRequest_finish (h : handleRequest env w c = .ok (b, w', c')) :
    ∃ w2 r, respond env (gate env w c.httpBase).1 (gate env w c.httpBase).2.2 (gate env w c.httpBase).2.1
        c.httpResponse = .ok (w2, r) ∧
      finish env w2 { c with httpBase := (gate env w c.httpBase).2.2, httpResponse := r } = (b, w', c') := by
  unfold handleRequest at h
  generalize gate env w c.httpBase = g at h ⊢
  obtain ⟨verdict, w1, base⟩ := g
  dsimp only at h ⊢
  rcases hrespond : respond env verdict base w1 c.httpResponse with e | ⟨w2, r⟩
  · rw [hrespond] at h
    cases h
  · rw [hrespond] at h
    exact ⟨w2, r, rfl, Except.ok.inj h⟩

/-- The response has been built: it is copied if it fits. -/
theorem finish_built (env : Environment) (w : World) (h : c.httpResponse.isBuilt = true) :
    finish env w c = ((copyResponseData c).1, w, (copyResponseData c).2) := by
  unfold finish
  rw [if_pos h]

/-- It has not: a file is sent, or the connection is closed. -/
theorem finish_file (env : Environment) (w : World) (h : c.httpResponse.isBuilt = false) :
    finish env w c = ((generateResponse env w c).1, (generateResponse env w c).2.1,
      if (generateResponse env w c).1 then (generateResponse env w c).2.2
        else (generateResponse env w c).2.2.closeConn) := by
  unfold finish
  rw [if_neg (by simp [h])]
  generalize generateResponse env w c = result
  obtain ⟨_ | _, w', c'⟩ := result <;> rfl

theorem isClosed_closeConn (c : HttpConn) : c.closeConn.isClosed = true := by
  unfold HttpConn.closeConn
  split_ifs with h
  · exact h
  · rfl

/-- Where a request is not answered the connection is closed, or what has been built does not fit the write
    buffer and nothing else has changed. -/
theorem handleRequest_false (h : handleRequest env w c = .ok (false, w', c')) :
    c'.isClosed = true ∨ ∃ r, respond env (gate env w c.httpBase).1 (gate env w c.httpBase).2.2
        (gate env w c.httpBase).2.1 c.httpResponse = .ok (w', r) ∧ 4096 ≤ r.responseData.length ∧
      c' = { c with httpBase := (gate env w c.httpBase).2.2, httpResponse := r } := by
  obtain ⟨w2, r, hrespond, hfinish⟩ := handleRequest_finish h
  by_cases hbuilt : r.isBuilt = true
  · rw [finish_built _ _ hbuilt] at hfinish
    unfold copyResponseData at hfinish
    split_ifs at hfinish with hlarge
    · cases hfinish
      exact .inr ⟨r, hrespond, hlarge, rfl⟩
    · cases hfinish
  · rw [finish_file _ _ (by simpa using hbuilt)] at hfinish
    generalize generateResponse env w2 _ = result at hfinish
    obtain ⟨_ | _, w3, c3⟩ := result
    · cases hfinish
      exact .inl (isClosed_closeConn c3)
    · cases hfinish

/-! ## Waiting for a request -/

/-- A connection from which a request is still to come. -/
structure Awaiting (c : HttpConn) : Prop where
  fileFd : c.fileFd = none
  fileOffset : c.fileOffset = 0
  headerSent : c.headerSent = false
  plain : c.httpResponse.Plain
  unbuilt : c.parseState ≠ .done → c.httpResponse.responseData = []
  unsent : c.parseState = .done → 4096 ≤ c.httpResponse.responseData.length

theorem awaiting_init (c : HttpConn) (sockfd : Int) : (c.init sockfd).Awaiting where
  fileFd := rfl
  fileOffset := rfl
  headerSent := rfl
  plain := ⟨rfl, rfl⟩
  unbuilt := fun _ => rfl
  unsent := fun h => by cases h

theorem awaiting_fresh (sockfd : Int) (ip : Str) : (fresh sockfd ip).Awaiting where
  fileFd := rfl
  fileOffset := rfl
  headerSent := rfl
  plain := ⟨rfl, rfl⟩
  unbuilt := fun _ => rfl
  unsent := fun h => by cases h

theorem Awaiting.closeConn (h : c.Awaiting) : c.closeConn.Awaiting := by
  unfold HttpConn.closeConn
  split_ifs
  · exact h
  · exact ⟨h.fileFd, h.fileOffset, h.headerSent, h.plain, h.unbuilt, h.unsent⟩

/-- Receiving changes the buffer and nothing else. -/
theorem read_eq (mode : TrigMode) (c : HttpConn) (results : List RecvResult) :
    ∃ buf, (c.read mode results).2 = { c with readBuf := buf } := by
  have hall : ∀ (results : List RecvResult) (c : HttpConn), ∃ buf, (recvAll c results).2 = { c with readBuf := buf } := by
    intro results
    induction results with
    | nil => exact fun c => ⟨c.readBuf, rfl⟩
    | cons result results ih =>
      intro c
      cases result with
      | received first rest =>
        simp only [recvAll]
        split_ifs
        · exact ⟨_, rfl⟩
        · obtain ⟨buf, hbuf⟩ := ih { c with readBuf := c.readBuf.receive (first :: rest) }
          exact ⟨buf, hbuf⟩
      | again => exact ⟨c.readBuf, rfl⟩
      | failed => exact ⟨c.readBuf, rfl⟩
      | eof => exact ⟨c.readBuf, rfl⟩
  unfold read
  split_ifs
  · exact ⟨c.readBuf, rfl⟩
  · cases mode with
    | ET => exact hall results c
    | LT =>
      show ∃ buf, (recvOnce c results).2 = { c with readBuf := buf }
      unfold recvOnce
      split
      · exact ⟨_, rfl⟩
      · exact ⟨c.readBuf, rfl⟩

theorem Awaiting.read (h : c.Awaiting) (mode : TrigMode) (results : List RecvResult) :
    (c.read mode results).2.Awaiting := by
  obtain ⟨buf, hbuf⟩ := read_eq mode c results
  rw [hbuf]
  exact ⟨h.fileFd, h.fileOffset, h.headerSent, h.plain, h.unbuilt, h.unsent⟩

/-- What a `process` call that returns false leaves: an incomplete request, a response that did not fit, or a
    closed connection. -/
theorem Awaiting.process (h : c.Awaiting) (hp : process env w c = .ok (false, w', c')) :
    c'.Awaiting ∨ c'.isClosed = true := by
  rcases process_cases hp with ⟨-, hb, -⟩ | ⟨-, -, -, side, hparse, rfl⟩ | ⟨side, w2, hparse, -, hreq, -⟩
  · cases hb
  · have hdone := ReadSide.parse_done_iff hparse
    have hnot : c.parseState ≠ .done := by
      intro hs
      rw [ReadSide.parse_of_done hs] at hparse
      cases hparse
    refine .inl ⟨h.fileFd, h.fileOffset, h.headerSent, h.plain, fun _ => h.unbuilt hnot, ?_⟩
    intro hs
    exact absurd (hdone.mpr hs) (by decide)
  · rcases handleRequest_false hreq with hclosed | ⟨r, hrespond, hlarge, rfl⟩
    · exact .inr hclosed
    · refine .inl ⟨h.fileFd, h.fileOffset, h.headerSent, (keeps_respond hrespond).plain h.plain, ?_, fun _ => hlarge⟩
      exact fun hs => absurd ((ReadSide.parse_done_iff hparse).mp rfl) hs

end HttpConn

end ModularNetServer
