import ModularNetServer.Http.ReadEvents
import ModularNetServer.Http.Proofs.ProcessProofs

/-!
# Level-triggered and edge-triggered mode

The same `recv` results in the two modes. They begin with data; what comes after these decides how the
modes differ.
-/

namespace ModularNetServer

open Cxx

namespace HttpConn

/-- The data with which the results begin. -/
def leading : List RecvResult → Str
  | .received first rest :: results => first :: rest ++ leading results
  | _ => []

/-- What comes after these data. -/
def following : List RecvResult → List RecvResult
  | .received _ _ :: results => following results
  | results => results

/-- The connection after a `recv` that delivers the given bytes. -/
def recv (c : HttpConn) (bytes : Str) : HttpConn := { c with readBuf := c.readBuf.receive bytes }

/-- The connection after it has received the leading data. -/
def recvLeading (c : HttpConn) : List RecvResult → HttpConn
  | .received first rest :: results => recvLeading (c.recv (first :: rest)) results
  | _ => c

variable {c c' : HttpConn} {results rest : List RecvResult} {i : Nat} {s : Serving}

/-- The buffer has room for the data. -/
def Fits (c : HttpConn) (results : List RecvResult) : Prop :=
  c.readBuf.idx + (received results).length ≤ readBufferSize

theorem received_cons (r : RecvResult) (results : List RecvResult) :
    received (r :: results) = r.data ++ received results := rfl

theorem received_append (results results' : List RecvResult) :
    received (results ++ results') = received results ++ received results' := by
  simp [received]

theorem received_leading (results : List RecvResult) :
    received results = leading results ++ received (following results) := by
  induction results with
  | nil => rfl
  | cons r results ih =>
    cases r with
    | received first rest =>
      simp only [received_cons, ih, leading, following, RecvResult.data, List.append_assoc]
    | again => rfl
    | failed => rfl
    | eof => rfl

theorem idx_recv (c : HttpConn) {bytes : Str} (h : c.readBuf.idx + bytes.length ≤ readBufferSize) :
    (c.recv bytes).readBuf.idx = c.readBuf.idx + bytes.length := by
  show (c.readBuf.receive bytes).idx = _
  rw [← ReadBuffer.pending_length, ReadBuffer.pending_receive_of_le h, List.length_append,
    ReadBuffer.pending_length]

/-- The first chunk of data that fit: there was room, and what is left fits. -/
theorem Fits.cons {first : UInt8} {chunk : Str} (h : c.Fits (.received first chunk :: results)) :
    c.readBuf.idx < readBufferSize ∧
      (c.recv (first :: chunk)).readBuf.idx = c.readBuf.idx + (first :: chunk).length ∧
      (c.recv (first :: chunk)).Fits results := by
  unfold Fits at h ⊢
  rw [received_cons, RecvResult.data, List.length_append] at h
  have hidx := @idx_recv c (first :: chunk) (by omega)
  rw [hidx]
  rw [List.length_cons] at h ⊢
  exact ⟨by omega, rfl, by omega⟩

/-- What fits still fits once the connection has been served. -/
theorem Fits.serve (h : c.Fits results) (hserve : s.serve i c = some c') : c'.Fits results :=
  (Nat.add_le_add_right (s.idx_le hserve) _).trans h

theorem idx_recvLeading (h : c.Fits results) :
    (c.recvLeading results).readBuf.idx = c.readBuf.idx + (leading results).length := by
  induction results generalizing c with
  | nil => rfl
  | cons r results ih =>
    cases r with
    | received first chunk =>
      obtain ⟨-, hidx, hfits⟩ := h.cons
      simp only [recvLeading, leading, ih hfits, hidx, List.length_append]
      omega
    | again => rfl
    | failed => rfl
    | eof => rfl

theorem sockfd_recvLeading (c : HttpConn) (results : List RecvResult) :
    (c.recvLeading results).sockfd = c.sockfd := by
  induction results generalizing c with
  | nil => rfl
  | cons r results ih =>
    cases r with
    | received first chunk => exact ih _
    | again => rfl
    | failed => rfl
    | eof => rfl

theorem fits_following (h : c.Fits results) : (c.recvLeading results).Fits (following results) := by
  unfold Fits at h ⊢
  rw [idx_recvLeading h]
  rw [received_leading, List.length_append] at h
  omega

/-! ## Events -/

variable {mode : TrigMode}

theorem readEvents_nil (mode : TrigMode) (s : Serving) (i : Nat) (c : HttpConn) :
    readEvents mode s i c [] = [] := by
  rw [readEvents]
  rfl

theorem readEvents_closed (hne : results ≠ []) (hread : (c.read mode results).1 = false) :
    readEvents mode s i c results = [.closed (results.take (taken mode c results))] := by
  rw [readEvents, if_neg hne, if_neg (by simp [hread])]

theorem readEvents_processed (hne : results ≠ []) (hread : (c.read mode results).1 = true) :
    readEvents mode s i c results = .processed (received (results.take (taken mode c results))) ::
      match s.serve i (c.read mode results).2 with
      | none => []
      | some c' => readEvents mode s (i + 1) c' (results.drop (taken mode c results)) := by
  rw [readEvents]
  exact (if_neg hne).trans (if_pos hread)

/-- A full buffer is not read into. -/
theorem readEvents_full (hne : results ≠ []) (hfull : readBufferSize ≤ c.readBuf.idx) :
    readEvents mode s i c results = [.closed []] := by
  have hread : (c.read mode results).1 = false := by
    unfold read
    rw [if_pos (.inr hfull)]
  rw [readEvents_closed hne hread]
  unfold taken
  rw [if_pos (.inr hfull)]
  rfl

/-- No more is handed over than has been received. -/
theorem handed_nil_of_received (h : received results = []) :
    handed (readEvents mode s i c results) = [] := by
  induction hn : results.length using Nat.strong_induction_on generalizing i c results with
  | _ n ih =>
    by_cases hne : results = []
    · rw [hne, readEvents_nil]
      rfl
    cases hread : (c.read mode results).1 with
    | false =>
      rw [readEvents_closed hne hread]
      rfl
    | true =>
      have hsplit := received_append (results.take (taken mode c results))
        (results.drop (taken mode c results))
      rw [List.take_append_drop, h, eq_comm, List.append_eq_nil_iff] at hsplit
      have hpos := taken_pos hne hread
      have hlen := List.length_pos_iff.mpr hne
      rw [readEvents_processed hne hread]
      simp only [handed, hsplit.1, List.nil_append]
      cases s.serve i (c.read mode results).2 with
      | none => rfl
      | some c' =>
        refine ih _ ?_ hsplit.2 rfl
        simp only [List.length_drop]
        omega

/-! ## Level-triggered mode -/

theorem readEvents_LT_received (hopen : c.sockfd ≠ -1) {first : UInt8} {chunk : Str}
    (hfits : c.Fits (.received first chunk :: results)) :
    readEvents .LT s i c (.received first chunk :: results) = .processed (first :: chunk) ::
      match s.serve i (c.recv (first :: chunk)) with
      | none => []
      | some c' => readEvents .LT s (i + 1) c' results := by
  obtain ⟨hroom, -⟩ := hfits.cons
  have hread : c.read .LT (.received first chunk :: results) = (true, c.recv (first :: chunk)) := by
    unfold read
    rw [if_neg (by simp [hopen, hroom])]
    rfl
  have htaken : taken .LT c (.received first chunk :: results) = 1 := by
    unfold taken
    rw [if_neg (by simp [hopen, hroom])]
    simp
  rw [readEvents_processed (by simp) (by rw [hread]), hread, htaken]
  simp [received, RecvResult.data]

/-- An event without data closes the connection. -/
theorem readEvents_LT_end (hopen : c.sockfd ≠ -1) (hroom : c.readBuf.idx < readBufferSize) {r : RecvResult}
    (hr : r.data = []) : readEvents .LT s i c (r :: results) = [.closed [r]] := by
  have hread : (c.read .LT (r :: results)).1 = false := by
    unfold read
    rw [if_neg (by simp [hopen, hroom])]
    cases r with
    | received => cases hr
    | again => rfl
    | failed => rfl
    | eof => rfl
  have htaken : taken .LT c (r :: results) = 1 := by
    unfold taken
    rw [if_neg (by simp [hopen, hroom])]
    simp
  rw [readEvents_closed (by simp) hread, htaken]
  rfl

/-- No response closes the connection before the leading data have been read, one chunk an event. -/
def ReadsAll (s : Serving) (i : Nat) (c : HttpConn) : List RecvResult → Prop
  | .received first chunk :: results =>
    match s.serve i (c.recv (first :: chunk)) with
    | none => leading results = []
    | some c' => ReadsAll s (i + 1) c' results
  | _ => True

/-- The connection after these events, unless a response has closed it. -/
def servedLeading (s : Serving) (i : Nat) (c : HttpConn) : List RecvResult → Option HttpConn
  | .received first chunk :: results =>
    match s.serve i (c.recv (first :: chunk)) with
    | none => none
    | some c' => servedLeading s (i + 1) c' results
  | _ => some c

/-- An event without data hands nothing over. -/
theorem handed_LT_end (hopen : c.sockfd ≠ -1) {r : RecvResult} (hr : r.data = []) :
    handed (readEvents .LT s i c (r :: results)) = [] := by
  by_cases hroom : c.readBuf.idx < readBufferSize
  · rw [readEvents_LT_end hopen hroom hr]
    rfl
  · rw [readEvents_full (by simp) (by omega)]
    rfl

/-- The leading data, or a part of them, is handed over. -/
theorem handed_LT (hopen : c.sockfd ≠ -1) (hfits : c.Fits results) :
    (handed (readEvents .LT s i c results) = leading results ↔ ReadsAll s i c results) ∧
      (handed (readEvents .LT s i c results)).length ≤ (leading results).length ∧
      (leading results ≠ [] → handed (readEvents .LT s i c results) ≠ []) := by
  induction results generalizing i c with
  | nil =>
    rw [readEvents_nil]
    exact ⟨iff_of_true rfl trivial, le_refl _, id⟩
  | cons r results ih =>
    cases r with
    | received first chunk =>
      obtain ⟨-, -, hfits'⟩ := hfits.cons
      rw [readEvents_LT_received hopen hfits]
      simp only [handed, leading, ReadsAll, List.length_append]
      cases hserve : s.serve i (c.recv (first :: chunk)) with
      | none =>
        simp only [handed, List.append_nil]
        exact ⟨List.self_eq_append_right, Nat.add_le_add_left (Nat.zero_le _) _, fun _ => List.cons_ne_nil _ _⟩
      | some c' =>
        have hopen' := s.sockfd_ne (c := c.recv (first :: chunk)) hopen hserve
        obtain ⟨hall, hle, -⟩ := ih (i := i + 1) hopen' (hfits'.serve hserve)
        refine ⟨by rw [List.append_cancel_left_eq]; exact hall, ?_, by simp⟩
        dsimp only
        omega
    | again =>
      rw [handed_LT_end hopen rfl]
      exact ⟨iff_of_true rfl trivial, le_refl _, id⟩
    | failed =>
      rw [handed_LT_end hopen rfl]
      exact ⟨iff_of_true rfl trivial, le_refl _, id⟩
    | eof =>
      rw [handed_LT_end hopen rfl]
      exact ⟨iff_of_true rfl trivial, le_refl _, id⟩

/-- An event that ends a connection at once. -/
theorem closed_LT_end (hopen : c.sockfd ≠ -1) {r : RecvResult} (hr : r.data = []) :
    .closed [.again] ∈ readEvents .LT s i c (r :: results) ↔
      r = .again ∧ c.readBuf.idx < readBufferSize := by
  by_cases hroom : c.readBuf.idx < readBufferSize
  · rw [readEvents_LT_end hopen hroom hr]
    simp [hroom, eq_comm]
  · rw [readEvents_full (by simp) (by omega)]
    simp [hroom]

/-- In level-triggered mode an event that yields only `EAGAIN` closes the connection. -/
theorem closed_LT_iff (hopen : c.sockfd ≠ -1) (hfits : c.Fits results) :
    .closed [.again] ∈ readEvents .LT s i c results ↔
      (∃ rest, following results = .again :: rest) ∧
        ∃ c' ∈ servedLeading s i c results, c'.readBuf.idx < readBufferSize := by
  induction results generalizing i c with
  | nil =>
    rw [readEvents_nil]
    simp [following]
  | cons r results ih =>
    cases r with
    | received first chunk =>
      obtain ⟨-, -, hfits'⟩ := hfits.cons
      rw [readEvents_LT_received hopen hfits]
      simp only [following, servedLeading, List.mem_cons, reduceCtorEq, false_or]
      cases hserve : s.serve i (c.recv (first :: chunk)) with
      | none => simp
      | some c' =>
        have hopen' := s.sockfd_ne (c := c.recv (first :: chunk)) hopen hserve
        exact ih hopen' (hfits'.serve hserve)
    | again =>
      rw [closed_LT_end hopen rfl]
      simp [following, servedLeading]
    | failed =>
      rw [closed_LT_end hopen rfl]
      simp [following]
    | eof =>
      rw [closed_LT_end hopen rfl]
      simp [following]

/-! ## Edge-triggered mode -/

/-- The next result is the end of the stream or an error. -/
def endsRead : List RecvResult → Bool
  | .failed :: _ => true
  | .eof :: _ => true
  | _ => false

/-- The leading data run into the end of the stream or an error and leave room in the buffer. -/
def CutOff (c : HttpConn) (results : List RecvResult) : Prop :=
  endsRead (following results) = true ∧ c.readBuf.idx + (leading results).length < readBufferSize

theorem leading_nil (h : leading results = []) :
    following results = results ∧ ∀ c, recvLeading c results = c := by
  cases results with
  | nil => exact ⟨rfl, fun _ => rfl⟩
  | cons r results =>
    cases r with
    | received first chunk => cases h
    | again => exact ⟨rfl, fun _ => rfl⟩
    | failed => exact ⟨rfl, fun _ => rfl⟩
    | eof => exact ⟨rfl, fun _ => rfl⟩

theorem recvAll_received (c : HttpConn) (first : UInt8) (chunk : Str) (results : List RecvResult) :
    recvAll c (.received first chunk :: results) =
      if readBufferSize ≤ (c.recv (first :: chunk)).readBuf.idx then (true, c.recv (first :: chunk))
      else recvAll (c.recv (first :: chunk)) results := rfl

theorem takenAll_received (c : HttpConn) (first : UInt8) (chunk : Str) (results : List RecvResult) :
    takenAll c (.received first chunk :: results) =
      if readBufferSize ≤ (c.recv (first :: chunk)).readBuf.idx then 1
      else takenAll (c.recv (first :: chunk)) results + 1 := rfl

/-- Data that fill the buffer end the loop of `read`. -/
theorem recvAll_full (hroom : c.readBuf.idx < readBufferSize) (hfits : c.Fits results)
    (hfull : readBufferSize ≤ c.readBuf.idx + (leading results).length) :
    recvAll c results = (true, c.recvLeading results) ∧
      received (results.take (takenAll c results)) = leading results ∧
      received (results.drop (takenAll c results)) = [] := by
  induction results generalizing c with
  | nil => exact absurd hfull (by simpa [leading] using hroom)
  | cons r results ih =>
    cases r with
    | received first chunk =>
      obtain ⟨-, hidx, hfits'⟩ := hfits.cons
      simp only [leading, List.length_append] at hfull
      rw [recvAll_received, takenAll_received]
      by_cases hnow : readBufferSize ≤ (c.recv (first :: chunk)).readBuf.idx
      · rw [if_pos hnow, if_pos hnow]
        have hnone : received results = [] := by
          unfold Fits at hfits'
          exact List.eq_nil_of_length_eq_zero (by omega)
        have hleading : leading results = [] := by
          rw [received_leading] at hnone
          exact (List.append_eq_nil_iff.mp hnone).1
        rw [recvLeading, (leading_nil hleading).2, leading, hleading]
        exact ⟨rfl, by simp [received, RecvResult.data], hnone⟩
      · rw [if_neg hnow, if_neg hnow]
        obtain ⟨hall, htake, hdrop⟩ := ih (c := c.recv (first :: chunk)) (by omega) hfits' (by omega)
        refine ⟨hall, ?_, hdrop⟩
        rw [List.take_succ_cons, received_cons, htake]
        rfl
    | again => exact absurd hfull (by simpa [leading] using hroom)
    | failed => exact absurd hfull (by simpa [leading] using hroom)
    | eof => exact absurd hfull (by simpa [leading] using hroom)

/-- Otherwise it ends with the next result. -/
theorem recvAll_room (hroom : c.readBuf.idx + (leading results).length < readBufferSize)
    (hfits : c.Fits results) :
    (recvAll c results).1 = !endsRead (following results) ∧
      (endsRead (following results) = false → (recvAll c results).2 = c.recvLeading results) ∧
      received (results.take (takenAll c results)) = leading results ∧
      results.drop (takenAll c results) = (following results).tail := by
  induction results generalizing c with
  | nil => exact ⟨rfl, fun _ => rfl, rfl, rfl⟩
  | cons r results ih =>
    cases r with
    | received first chunk =>
      obtain ⟨-, hidx, hfits'⟩ := hfits.cons
      simp only [leading, List.length_append] at hroom
      have hnow : ¬ readBufferSize ≤ (c.recv (first :: chunk)).readBuf.idx := by omega
      obtain ⟨hresult, hconn, htake, hdrop⟩ := ih (c := c.recv (first :: chunk)) (by omega) hfits'
      rw [recvAll_received, takenAll_received, if_neg hnow, if_neg hnow]
      refine ⟨hresult, hconn, ?_, hdrop⟩
      rw [List.take_succ_cons, received_cons, htake]
      rfl
    | again => exact ⟨rfl, fun _ => rfl, rfl, rfl⟩
    | failed => exact ⟨rfl, nofun, rfl, rfl⟩
    | eof => exact ⟨rfl, nofun, rfl, rfl⟩

/-- What is handed over after the leading data. -/
def handedLater (s : Serving) (i : Nat) (c : HttpConn) (results : List RecvResult) : Str :=
  match following results, s.serve i (c.recvLeading results) with
  | .again :: rest, some c' => handed (readEvents .ET s (i + 1) c' rest)
  | _, _ => []

theorem following_again_or_ends (results : List RecvResult) :
    following results = [] ∨ (∃ rest, following results = .again :: rest) ∨
      endsRead (following results) = true := by
  induction results with
  | nil => exact .inl rfl
  | cons r results ih =>
    cases r with
    | received first chunk => exact ih
    | again => exact .inr (.inl ⟨results, rfl⟩)
    | failed => exact .inr (.inr rfl)
    | eof => exact .inr (.inr rfl)

theorem handedLater_nil (h : received (following results) = []) : handedLater s i c results = [] := by
  unfold handedLater
  split
  · rename_i rest c' hfollowing _
    rw [hfollowing] at h
    exact handed_nil_of_received h
  · rfl

theorem read_ET (hopen : c.sockfd ≠ -1) (hroom : c.readBuf.idx < readBufferSize) :
    c.read .ET results = recvAll c results ∧ taken .ET c results = takenAll c results := by
  unfold read taken
  rw [if_neg (by simp [hopen, hroom]), if_neg (by simp [hopen, hroom])]
  exact ⟨rfl, rfl⟩

/-- Where the leading data fill the buffer, nothing follows them. -/
theorem received_following (hfits : c.Fits results)
    (hfull : readBufferSize ≤ c.readBuf.idx + (leading results).length) :
    received (following results) = [] := by
  unfold Fits at hfits
  rw [received_leading, List.length_append] at hfits
  exact List.eq_nil_of_length_eq_zero (by omega)

/-- The leading data are handed over in one event, unless they are cut off. -/
theorem handed_ET (hopen : c.sockfd ≠ -1) (hfits : c.Fits results) :
    (CutOff c results → handed (readEvents .ET s i c results) = []) ∧
      (¬ CutOff c results → handed (readEvents .ET s i c results) =
        leading results ++ handedLater s i c results) := by
  by_cases hne : results = []
  · rw [hne, readEvents_nil]
    exact ⟨fun _ => rfl, fun _ => rfl⟩
  by_cases hroom : c.readBuf.idx + (leading results).length < readBufferSize
  · obtain ⟨hread, htaken⟩ := @read_ET c results hopen (by omega)
    obtain ⟨hresult, hconn, htake, hdrop⟩ := recvAll_room hroom hfits
    cases hends : endsRead (following results) with
    | true =>
      rw [hends, ← hread] at hresult
      rw [readEvents_closed hne hresult]
      exact ⟨fun _ => rfl, fun hcut => absurd ⟨hends, hroom⟩ hcut⟩
    | false =>
      rw [hends, ← hread] at hresult
      rw [readEvents_processed hne hresult, hread, htaken, htake, hconn hends, hdrop]
      refine ⟨fun hcut => absurd (hends.symm.trans hcut.1) (by decide), fun _ => ?_⟩
      simp only [handed, List.append_cancel_left_eq]
      unfold handedLater
      rcases following_again_or_ends results with hfollowing | ⟨rest, hfollowing⟩ | hfollowing
      · rw [hfollowing, List.tail_nil]
        cases s.serve i (c.recvLeading results) with
        | none => rfl
        | some c' =>
          dsimp only
          rw [readEvents_nil]
          rfl
      · rw [hfollowing, List.tail_cons]
        cases s.serve i (c.recvLeading results) with
        | none => rfl
        | some c' => rfl
      · exact absurd (hends.symm.trans hfollowing) (by decide)
  · have hnone := received_following hfits (by omega)
    refine ⟨fun hcut => absurd hcut.2 hroom, fun _ => ?_⟩
    rw [handedLater_nil hnone, List.append_nil]
    by_cases hstart : c.readBuf.idx < readBufferSize
    · obtain ⟨hread, htaken⟩ := @read_ET c results hopen hstart
      obtain ⟨hall, htake, hdrop⟩ := recvAll_full hstart hfits (by omega)
      rw [readEvents_processed hne (by rw [hread, hall]), htaken, htake]
      simp only [handed, List.append_right_eq_self]
      cases s.serve i (c.read .ET results).2 with
      | none => rfl
      | some c' => exact handed_nil_of_received hdrop
    · rw [readEvents_full hne (by omega)]
      unfold Fits at hfits
      rw [received_leading, List.length_append] at hfits
      exact (List.eq_nil_of_length_eq_zero (by omega)).symm

/-- Nothing is handed over: no data come before the end, or they are cut off. -/
def Silent (s : Serving) (i : Nat) (c : HttpConn) : List RecvResult → Prop
  | .received first chunk :: results => CutOff c (.received first chunk :: results)
  | .again :: results => ∀ c' ∈ s.serve i c, Silent s (i + 1) c' results
  | _ => True

theorem handed_ET_nil_iff (hopen : c.sockfd ≠ -1) (hfits : c.Fits results) :
    handed (readEvents .ET s i c results) = [] ↔ Silent s i c results := by
  induction results generalizing i c with
  | nil =>
    rw [readEvents_nil]
    exact iff_of_true rfl trivial
  | cons r results ih =>
    obtain ⟨hcut, hnot⟩ := handed_ET (s := s) (i := i) hopen hfits
    cases r with
    | received first chunk =>
      refine ⟨fun hnil => ?_, hcut⟩
      by_contra hn
      rw [hnot hn] at hnil
      cases (List.append_eq_nil_iff.mp hnil).1
    | again =>
      rw [hnot (by simp [CutOff, following, endsRead])]
      simp only [leading, handedLater, following, recvLeading, List.nil_append, Silent]
      cases hserve : s.serve i c with
      | none => simp
      | some c' => simpa using ih (s.sockfd_ne hopen hserve) (Fits.serve hfits hserve)
    | failed =>
      refine iff_of_true ?_ trivial
      by_cases hc : CutOff c (.failed :: results)
      · exact hcut hc
      · exact hnot hc
    | eof =>
      refine iff_of_true ?_ trivial
      by_cases hc : CutOff c (.eof :: results)
      · exact hcut hc
      · exact hnot hc

theorem handedLater_nil_iff (hopen : c.sockfd ≠ -1) (hfits : c.Fits results) :
    handedLater s i c results = [] ↔ ∀ rest, following results = .again :: rest →
      ∀ c' ∈ s.serve i (c.recvLeading results), Silent s (i + 1) c' rest := by
  unfold handedLater
  rcases following_again_or_ends results with hfollowing | ⟨rest, hfollowing⟩ | hends
  · rw [hfollowing]
    exact iff_of_true rfl nofun
  · simp only [hfollowing, List.cons.injEq, true_and, forall_eq']
    cases hserve : s.serve i (c.recvLeading results) with
    | none => simp
    | some c' =>
      have hfits' := fits_following hfits
      rw [hfollowing] at hfits'
      have hopen' : (c.recvLeading results).sockfd ≠ -1 := by rwa [sockfd_recvLeading]
      simpa using @handed_ET_nil_iff _ rest _ _ (s.sockfd_ne hopen' hserve) (hfits'.serve hserve)
  · refine iff_of_true ?_ ?_
    · split
      · rename_i rest c' hfollowing _
        rw [hfollowing] at hends
        cases hends
      · rfl
    · intro rest hfollowing
      rw [hfollowing] at hends
      cases hends

theorem take_ne_again (h : (recvAll c results).1 = false) : results.take (takenAll c results) ≠ [.again] := by
  cases results with
  | nil => simp
  | cons r results =>
    cases r with
    | received first chunk =>
      rw [takenAll_received]
      split_ifs <;> simp
    | again => cases h
    | failed => simp [takenAll]
    | eof => simp [takenAll]

/-- In edge-triggered mode an event that yields only `EAGAIN` leaves the connection open. -/
theorem closed_ET (s : Serving) (i : Nat) (c : HttpConn) (results : List RecvResult) :
    .closed [.again] ∉ readEvents .ET s i c results := by
  induction hn : results.length using Nat.strong_induction_on generalizing i c results with
  | _ n ih =>
    by_cases hne : results = []
    · rw [hne, readEvents_nil]
      exact List.not_mem_nil
    cases hread : (c.read .ET results).1 with
    | false =>
      rw [readEvents_closed hne hread]
      unfold read taken at *
      split_ifs at hread ⊢
      · simp
      · simpa [eq_comm] using take_ne_again hread
    | true =>
      have hpos := taken_pos hne hread
      have hlen := List.length_pos_iff.mpr hne
      rw [readEvents_processed hne hread]
      cases s.serve i (c.read .ET results).2 with
      | none => simp
      | some c' =>
        have hrest := ih _ (by simp only [List.length_drop]; omega) (i + 1) c'
          (results.drop (taken .ET c results)) rfl
        simpa using hrest

/-! ## Agreement -/

/-- The modes agree: the same bytes are handed over, and no event that yields only `EAGAIN` closes the
    connection. -/
structure Agree (lt et : Serving) (c : HttpConn) (results : List RecvResult) : Prop where
  bytes : handed (readEvents .LT lt 0 c results) = handed (readEvents .ET et 0 c results)
  openLT : .closed [.again] ∉ readEvents .LT lt 0 c results
  openET : .closed [.again] ∉ readEvents .ET et 0 c results

/-- In level-triggered mode no response closes the connection before the data with which the results begin
    have been read. They do not run into the end of the stream or an error unless they fill the buffer.
    Where `EAGAIN` comes after them, in level-triggered mode the connection is closed by then or its buffer
    full, and in edge-triggered mode nothing more is handed over. -/
structure SameReads (lt et : Serving) (c : HttpConn) (results : List RecvResult) : Prop where
  readsAll : ReadsAll lt 0 c results
  notCutOff : leading results ≠ [] → ¬ CutOff c results
  ended : ∀ rest, following results = .again :: rest →
    (∀ c' ∈ servedLeading lt 0 c results, readBufferSize ≤ c'.readBuf.idx) ∧
      ∀ c' ∈ et.serve 0 (c.recvLeading results), Silent et 1 c' rest

/-- **The trigger modes agree** exactly under these conditions, whatever `recv` reports on an open
    connection, as long as the data fit the read buffer. -/
theorem agree_iff (lt et : Serving) {c : HttpConn} {results : List RecvResult} (hopen : c.sockfd ≠ -1)
    (hfits : c.Fits results) : Agree lt et c results ↔ SameReads lt et c results := by
  obtain ⟨hall, hle, hsome⟩ := handed_LT (s := lt) (i := 0) hopen hfits
  obtain ⟨hcut, hnot⟩ := handed_ET (s := et) (i := 0) hopen hfits
  have hclosed := closed_LT_iff (s := lt) (i := 0) hopen hfits
  have hlater := handedLater_nil_iff (s := et) (i := 0) hopen hfits
  constructor
  · rintro ⟨hbytes, hagain, -⟩
    rw [hclosed] at hagain
    by_cases hc : CutOff c results
    · rw [hcut hc] at hbytes
      have hleading : leading results = [] := by
        by_contra hne
        exact hsome hne hbytes
      refine ⟨hall.mp (hbytes.trans hleading.symm), fun hne => absurd hleading hne, ?_⟩
      intro rest hfollowing
      rw [CutOff, hfollowing] at hc
      cases hc.1
    · rw [hnot hc] at hbytes
      have hnone : handedLater et 0 c results = [] := by
        rw [hbytes, List.length_append] at hle
        exact List.eq_nil_of_length_eq_zero (by omega)
      rw [hnone, List.append_nil] at hbytes
      refine ⟨hall.mp hbytes, fun _ => hc, fun rest hfollowing => ⟨?_, hlater.mp hnone rest hfollowing⟩⟩
      intro c' hc'
      by_contra hroom
      exact hagain ⟨⟨rest, hfollowing⟩, c', hc', by omega⟩
  · rintro ⟨hreads, hkept, hended⟩
    refine ⟨?_, ?_, closed_ET et 0 c results⟩
    · rw [hall.mpr hreads]
      by_cases hc : CutOff c results
      · rw [hcut hc]
        by_contra hne
        exact hkept hne hc
      · rw [hnot hc, hlater.mpr fun rest hfollowing => (hended rest hfollowing).2, List.append_nil]
    · rw [hclosed]
      rintro ⟨⟨rest, hfollowing⟩, c', hc', hroom⟩
      have hfull := (hended rest hfollowing).1 c' hc'
      omega

/-! ## The server between two read events -/

/-- The `process` call of a read event with the write events and the reset that follow it. -/
def serveOnce (env : Environment) (w : World) (writes : List (List SocketResult × List SocketResult))
    (c : HttpConn) : Option HttpConn :=
  match process env w c with
  | .error _ => none
  | .ok (true, _, c') => (c'.handleWriteEvents c.sockfd writes).join
  | .ok (false, _, c') => if c'.isClosed then none else some c'

theorem process_keeps {env : Environment} {w w' : World} (hp : process env w c = .ok (false, w', c'))
    (hopen : c'.isClosed = false) : c'.sockfd = c.sockfd ∧ c'.readBuf.idx ≤ c.readBuf.idx := by
  rcases process_cases hp with ⟨-, hb, -⟩ | ⟨-, -, -, side, hparse, rfl⟩ | ⟨side, w2, hparse, -, hreq, -⟩
  · cases hb
  · exact ⟨rfl, ReadSide.parse_idx_le hparse⟩
  · have hidx := ReadSide.parse_idx_le hparse
    rcases handleRequest_false hreq with hclosed | ⟨r, -, -, rfl⟩
    · exact absurd (hopen.symm.trans hclosed) (by decide)
    · exact ⟨rfl, hidx⟩

theorem serveOnce_some {env : Environment} {w : World}
    {writes : List (List SocketResult × List SocketResult)} (h : serveOnce env w writes c = some c') :
    c'.sockfd = c.sockfd ∧ c'.readBuf.idx ≤ c.readBuf.idx := by
  unfold serveOnce at h
  rcases hp : process env w c with e | ⟨_ | _, w1, c1⟩
  all_goals simp only [hp] at h
  · cases h
  · split_ifs at h with hclosed
    cases h
    exact process_keeps hp (by simpa using hclosed)
  · obtain ⟨hside, -, hsockfd⟩ := handleWriteEvents_some (Option.join_eq_some_iff.mp h)
    refine ⟨hsockfd, ?_⟩
    rw [hside]
    exact Nat.zero_le _

/-- The server, with the shared state and the answers of the socket at each event. -/
def serving (env : Environment) (worlds : Nat → World)
    (writes : Nat → List (List SocketResult × List SocketResult)) : Serving where
  serve := fun i => serveOnce env (worlds i) (writes i)
  sockfd_ne := fun hopen h => by rwa [(serveOnce_some h).1]
  idx_le := fun h => (serveOnce_some h).2

/-- A server whose socket takes whatever is sent. -/
def pageServing : Serving := serving loginEnvironment (fun _ => loginWorld) (fun _ => [([.accepts 4096, .accepts 5], [])])

/-- A request for a page. -/
def pageRead : RecvResult := .received 71 (str "ET /index.html HTTP/1.1\r\n\r\n")

theorem agree_iff_page : Agree pageServing pageServing (fresh 5 (str "10.0.0.1")) [pageRead] := by
  refine (agree_iff pageServing pageServing (by decide) (by unfold Fits; decide)).mpr ⟨?_, ?_, nofun⟩
  · unfold pageRead ReadsAll
    split
    · rfl
    · trivial
  · rintro - ⟨hends, -⟩
    cases hends

/-- A request followed by the client's `FIN` is processed in level-triggered mode only, and an event that
    yields only `EAGAIN` closes the connection in that mode. -/
theorem request_before_fin_dropped :
    handed (readEvents .LT pageServing 0 (fresh 5 (str "10.0.0.1")) [pageRead, .eof]) = pageRead.data ∧
      handed (readEvents .ET pageServing 0 (fresh 5 (str "10.0.0.1")) [pageRead, .eof]) = [] ∧
      .closed [.again] ∈ readEvents .LT pageServing 0 (fresh 5 (str "10.0.0.1")) [.again] ∧
      ¬ Agree pageServing pageServing (fresh 5 (str "10.0.0.1")) [pageRead, .eof] := by
  have hopen : (fresh 5 (str "10.0.0.1")).sockfd ≠ -1 := by decide
  have hfits : (fresh 5 (str "10.0.0.1")).Fits [pageRead, .eof] := by
    unfold Fits
    decide
  have hLT : handed (readEvents .LT pageServing 0 (fresh 5 (str "10.0.0.1")) [pageRead, .eof]) =
      pageRead.data := by
    refine (handed_LT hopen hfits).1.mpr ?_
    unfold pageRead ReadsAll
    split
    · rfl
    · trivial
  have hET : handed (readEvents .ET pageServing 0 (fresh 5 (str "10.0.0.1")) [pageRead, .eof]) = [] :=
    (handed_ET hopen hfits).1 ⟨rfl, by decide⟩
  refine ⟨hLT, hET, ?_, ?_⟩
  · rw [readEvents_LT_end hopen (by decide) rfl]
    exact List.mem_singleton_self _
  · rintro ⟨hbytes, -, -⟩
    rw [hLT, hET] at hbytes
    cases hbytes

end HttpConn

end ModularNetServer
