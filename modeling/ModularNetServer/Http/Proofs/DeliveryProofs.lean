import ModularNetServer.Http.WriteSide

/-!
# What `write` delivers

A call that stops within the header starts it again in the next call, and a `sendfile` that takes
only a part of the file counts as all of it. The response is delivered exactly as long as neither
happens (`write_delivers_iff`).
-/

namespace ModularNetServer

open Cxx

namespace WriteSide

/-- A response that has been built and of which nothing has been sent. -/
def ready (buf : Str) (file : Option Str) (offset size : Int) : WriteSide :=
  { init (file.getD []) with
    writeBuf := buf, fileFd := file, fileOffset := offset, fileResponseSize := size }

/-- The number of file bytes of the response. -/
def window (file : Option Str) (size : Int) : Nat := if file.isSome then size.toNat else 0

/-- The header buffer. -/
def headerSpan (len : Nat) : List Sent := (List.range' 0 len).map .header

/-- The response: the header buffer, then the window of the file. -/
def response (buf : Str) (file : Option Str) (offset size : Int) : List Sent :=
  headerSpan buf.length ++ fileSpan offset (window file size)

/-- After every call what the socket has taken so far, `done` included, is a prefix of the response,
    and it is the whole response if the call returned `OK`. -/
def Delivers (response : List Sent) (done : List Sent) : List (WriteStatus × List Sent) → Prop
  | [] => True
  | (status, sent) :: rest =>
    done ++ sent <+: response ∧ (status = .ok → done ++ sent = response) ∧
      Delivers response (done ++ sent) rest

/-! ## The condition on the socket -/

/-- The socket takes at least a byte of what it is offered first. -/
def takes : List SocketResult → Bool
  | .accepts _ :: _ => true
  | _ => false

/-- If the socket takes `len` bytes offered from their start without a break, the answers left. -/
def acceptsAll : Nat → List SocketResult → Option (List SocketResult)
  | 0, rs => some rs
  | _ + 1, [] => none
  | len + 1, .accepts n :: rs => acceptsAll (len + 1 - SocketResult.taken n (len + 1)) rs
  | _ + 1, _ :: _ => none

/-- The first `sendfile` that is taken at all is taken whole. -/
def NoShortSendfile (size : Nat) : List (List SocketResult) → Prop
  | [] => True
  | (.accepts n :: _) :: _ => size ≤ max 1 n
  | _ :: calls => NoShortSendfile size calls

/-- The header goes out within one call, unless no later call sends anything; and the file goes out
    with one `sendfile`. -/
def Unbroken (len size : Nat) : List (List SocketResult) → Prop
  | [] => True
  | rs :: calls =>
    match acceptsAll len rs with
    | some rest => NoShortSendfile size (rest :: calls)
    | none => if takes rs then ∀ rs' ∈ calls, takes rs' = false else Unbroken len size calls

/-! ## One call -/

theorem taken_pos (n requested : Nat) : 1 ≤ SocketResult.taken n requested := Nat.le_max_left _ _

theorem taken_le {n requested : Nat} (h : 0 < requested) :
    SocketResult.taken n requested ≤ requested := by
  unfold SocketResult.taken
  omega

theorem range'_header_append (a k m : Nat) :
    (List.range' a k).map Sent.header ++ (List.range' (a + k) m).map Sent.header =
      (List.range' a (k + m)).map Sent.header := by
  rw [← List.map_append, List.range'_append_1]

/-- The header loop, from `total` on, when the socket takes all the rest. -/
theorem sendHeader_all {len total : Nat} {rs rest : List SocketResult} (hle : total ≤ len)
    (h : acceptsAll (len - total) rs = some rest) :
    sendHeader len total rs = (.ok rest, (List.range' total (len - total)).map .header) := by
  induction rs generalizing total with
  | nil =>
    cases hn : len - total with
    | zero =>
      rw [hn] at h
      cases h
      simp [sendHeader, show ¬ total < len by omega]
    | succ m => rw [hn] at h; cases h
  | cons r rs ih =>
    cases hn : len - total with
    | zero =>
      rw [hn] at h
      cases h
      simp [sendHeader, show ¬ total < len by omega]
    | succ m =>
      rw [hn] at h
      cases r with
      | again => cases h
      | fails => cases h
      | accepts n =>
        have htaken := @taken_le n (m + 1) (by omega)
        simp only [acceptsAll] at h
        have hrest : m + 1 - SocketResult.taken n (m + 1) =
            len - (total + SocketResult.taken n (m + 1)) := by omega
        rw [hrest] at h
        simp only [sendHeader, show total < len by omega, if_true, hn, ih (by omega) h]
        rw [range'_header_append, ← hrest]
        congr 3
        omega

/-- The header loop when it stops early: some bytes, at least one if the first answer takes any. -/
theorem sendHeader_stops {len total : Nat} {rs : List SocketResult} (hle : total ≤ len)
    (h : acceptsAll (len - total) rs = none) :
    ∃ status k, status ≠ .ok ∧ total + k < len ∧ (takes rs = true ↔ 0 < k) ∧
      sendHeader len total rs = (.error status, (List.range' total k).map .header) := by
  induction rs generalizing total with
  | nil =>
    cases hn : len - total with
    | zero => rw [hn] at h; cases h
    | succ m =>
      exact ⟨.again, 0, by simp, by omega, by simp [takes],
        by simp [sendHeader, show total < len by omega]⟩
  | cons r rs ih =>
    cases hn : len - total with
    | zero => rw [hn] at h; cases h
    | succ m =>
      rw [hn] at h
      cases r with
      | again =>
        exact ⟨.again, 0, by simp, by omega, by simp [takes],
          by simp [sendHeader, show total < len by omega]⟩
      | fails =>
        exact ⟨.error, 0, by simp, by omega, by simp [takes],
          by simp [sendHeader, show total < len by omega]⟩
      | accepts n =>
        have hpos := taken_pos n (m + 1)
        have htaken := @taken_le n (m + 1) (by omega)
        simp only [acceptsAll] at h
        have hrest : m + 1 - SocketResult.taken n (m + 1) =
            len - (total + SocketResult.taken n (m + 1)) := by omega
        rw [hrest] at h
        obtain ⟨status, k, hst, hk, -, hsend⟩ := ih (by omega) h
        refine ⟨status, SocketResult.taken n (m + 1) + k, hst, by omega, by simp [takes]; omega, ?_⟩
        simp only [sendHeader, show total < len by omega, if_true, hn, hsend]
        rw [range'_header_append]

theorem fileSpan_length (start : Int) (k : Nat) : (fileSpan start k).length = k := by
  simp [fileSpan]

/-- A `write` whose header is taken whole goes on with the file. -/
theorem write_all {s : WriteSide} {buf : Str} {rs rest : List SocketResult} (hs : s.headerSent = false)
    (hbuf : s.writeBuf = buf) (h : acceptsAll buf.length rs = some rest) :
    write s rs =
      ((sendFile { s with headerSent := true } rest).1,
        headerSpan buf.length ++ (sendFile { s with headerSent := true } rest).2.1,
        (sendFile { s with headerSent := true } rest).2.2) := by
  have hsend := @sendHeader_all _ 0 _ _ (Nat.zero_le _) h
  simp only [write, hs, hbuf, hsend, Bool.false_eq_true, if_false]
  rfl

/-- A `write` whose header is not taken whole leaves everything as it was. -/
theorem write_stops {s : WriteSide} {buf : Str} {rs : List SocketResult} (hs : s.headerSent = false)
    (hbuf : s.writeBuf = buf) (h : acceptsAll buf.length rs = none) :
    ∃ status k, status ≠ .ok ∧ k < buf.length ∧ (takes rs = true ↔ 0 < k) ∧
      write s rs = (status, headerSpan k, s) := by
  obtain ⟨status, k, hst, hk, htakes, hsend⟩ := @sendHeader_stops _ 0 _ (Nat.zero_le _) h
  refine ⟨status, k, hst, by omega, htakes, ?_⟩
  simp only [write, hs, hbuf, hsend, Bool.false_eq_true, if_false]
  rfl

/-- A start of the header buffer, and what is left of the response after it. -/
theorem response_split {buf : Str} {k : Nat} (hk : k < buf.length) (file : Option Str)
    (offset size : Int) :
    response buf file offset size = headerSpan k ++ (.header k ::
      ((List.range' (k + 1) (buf.length - (k + 1))).map .header ++
        fileSpan offset (window file size))) := by
  have h1 := range'_header_append 0 k (buf.length - k)
  rw [Nat.zero_add, Nat.add_sub_cancel' hk.le] at h1
  obtain ⟨m, hm⟩ : ∃ m, buf.length - k = m + 1 := ⟨buf.length - k - 1, by omega⟩
  rw [response, headerSpan, ← h1, hm, List.range'_succ, List.map_cons, List.append_assoc,
    show buf.length - (k + 1) = m by omega]
  rfl

theorem headerSpan_prefix {buf : Str} {k : Nat} (hk : k < buf.length) (file : Option Str)
    (offset size : Int) : headerSpan k <+: response buf file offset size := by
  rw [response_split hk]
  exact List.prefix_append _ _

theorem headerSpan_pos {k : Nat} (hk : 0 < k) :
    headerSpan k = .header 0 :: (List.range' 1 (k - 1)).map .header := by
  obtain ⟨m, rfl⟩ : ∃ m, k = m + 1 := ⟨k - 1, by omega⟩
  rw [headerSpan, List.range'_succ, List.map_cons]
  rfl

/-- An empty window asks for no `sendfile`. -/
theorem noShortSendfile_zero (calls : List (List SocketResult)) : NoShortSendfile 0 calls := by
  induction calls with
  | nil => trivial
  | cons rs calls ih =>
    unfold NoShortSendfile
    split
    · trivial
    · exact Nat.zero_le _
    · rename_i h
      cases h
      exact ih

/-! ## Calls after the header -/

/-- Once the file is closed every call returns `OK` and sends nothing. -/
theorem delivers_closed {response : List Sent} {s : WriteSide} (hs : s.headerSent = true)
    (hf : s.fileFd = none) (calls : List (List SocketResult)) :
    Delivers response response (writes s calls) := by
  induction calls with
  | nil => trivial
  | cons rs calls ih =>
    have hw : write s rs = (.ok, [], s) := by simp [write, sendFile, hs, hf]
    simp only [writes, hw, Delivers, List.append_nil]
    exact ⟨List.prefix_rfl, fun _ => trivial, ih⟩

/-- A call with an open file, nothing of which has been sent. -/
theorem delivers_sendFile {head : List Sent} {s : WriteSide} {path : Str} (hs : s.headerSent = true)
    (hf : s.fileFd = some path) (hb : s.fileBytesSent = 0) (rs : List SocketResult)
    (calls : List (List SocketResult))
    (ih : Delivers (head ++ fileSpan s.fileOffset s.fileResponseSize.toNat) head (writes s calls) ↔
      NoShortSendfile s.fileResponseSize.toNat calls) :
    (head ++ (sendFile s rs).2.1 <+: head ++ fileSpan s.fileOffset s.fileResponseSize.toNat ∧
      ((sendFile s rs).1 = .ok →
        head ++ (sendFile s rs).2.1 = head ++ fileSpan s.fileOffset s.fileResponseSize.toNat) ∧
      Delivers (head ++ fileSpan s.fileOffset s.fileResponseSize.toNat)
        (head ++ (sendFile s rs).2.1) (writes (sendFile s rs).2.2 calls)) ↔
    NoShortSendfile s.fileResponseSize.toNat (rs :: calls) := by
  by_cases hsize : s.fileBytesSent < s.fileResponseSize
  · have hpos : 0 < s.fileResponseSize.toNat := by omega
    cases rs with
    | nil => simpa [sendFile, hf, hsize, NoShortSendfile] using ih
    | cons r rs =>
      cases r with
      | again => simpa [sendFile, hf, hsize, NoShortSendfile] using ih
      | fails => simpa [sendFile, hf, hsize, NoShortSendfile] using ih
      | accepts n =>
        have hle := taken_le (n := n) hpos
        have hsub : s.fileResponseSize - 0 = s.fileResponseSize := by omega
        rw [hb] at hsize
        simp only [sendFile, hf, hsize, if_true, NoShortSendfile, hb, Int.add_zero, hsub]
        refine ⟨fun h => ?_, fun hn => ?_⟩
        · have hlen := congrArg List.length (List.append_cancel_left (h.2.1 trivial))
          rw [fileSpan_length, fileSpan_length] at hlen
          unfold SocketResult.taken at hlen
          omega
        · have hall : SocketResult.taken n s.fileResponseSize.toNat = s.fileResponseSize.toNat := by
            unfold SocketResult.taken
            omega
          rw [hall]
          exact ⟨List.prefix_rfl, fun _ => rfl, delivers_closed (by exact hs) rfl calls⟩
  · have hzero : s.fileResponseSize.toNat = 0 := by omega
    have hsend : sendFile s rs = (.ok, [], { s with fileFd := none }) := by
      simp [sendFile, hf, hsize]
    have hspan : fileSpan s.fileOffset 0 = [] := rfl
    simp only [hsend, hzero, hspan, List.append_nil, noShortSendfile_zero, iff_true]
    exact ⟨List.prefix_rfl, fun _ => trivial, delivers_closed (by exact hs) rfl calls⟩

/-- Once the header is out, the file is delivered if and only if no `sendfile` is short. -/
theorem delivers_file {head : List Sent} {s : WriteSide} {path : Str} (hs : s.headerSent = true)
    (hf : s.fileFd = some path) (hb : s.fileBytesSent = 0) (calls : List (List SocketResult)) :
    Delivers (head ++ fileSpan s.fileOffset s.fileResponseSize.toNat) head (writes s calls) ↔
      NoShortSendfile s.fileResponseSize.toNat calls := by
  induction calls with
  | nil => simp [NoShortSendfile, writes, Delivers]
  | cons rs calls ih =>
    have hw : write s rs = sendFile s rs := by simp [write, hs]
    rw [← delivers_sendFile hs hf hb rs calls ih]
    simp only [writes, hw, Delivers]

/-! ## Calls before the header is out -/

/-- After a break within the header a call that sends anything repeats a byte. -/
theorem delivers_broken {buf : Str} {file : Option Str} {offset size : Int} {k : Nat}
    (hk : 0 < k) (hlt : k < buf.length) (calls : List (List SocketResult)) :
    Delivers (response buf file offset size) (headerSpan k)
        (writes (ready buf file offset size) calls) ↔
      ∀ rs ∈ calls, takes rs = false := by
  have hrepeat : ∀ sent, ¬ headerSpan k ++ (.header 0 :: sent) <+: response buf file offset size := by
    intro sent hp
    rw [response_split hlt, List.prefix_append_right_inj, List.cons_prefix_cons] at hp
    have := Sent.header.inj hp.1
    omega
  induction calls with
  | nil => simp [writes, Delivers]
  | cons rs calls ih =>
    rw [List.forall_mem_cons]
    cases ha : acceptsAll buf.length rs with
    | some rest =>
      -- the whole header once more
      have htakes : takes rs = true := by
        obtain ⟨n, hn⟩ : ∃ n, buf.length = n + 1 := ⟨buf.length - 1, by omega⟩
        rw [hn] at ha
        cases rs with
        | nil => cases ha
        | cons r rs => cases r <;> first | rfl | cases ha
      refine ⟨fun h => ?_, fun h => absurd htakes (by simp [h.1])⟩
      simp only [writes, @write_all (ready buf file offset size) buf _ _ rfl rfl ha, Delivers,
        headerSpan_pos (show 0 < buf.length by omega), List.cons_append] at h
      exact (hrepeat _ h.1).elim
    | none =>
      obtain ⟨status, j, hst, -, htakes, hw⟩ := @write_stops (ready buf file offset size) buf _ rfl rfl ha
      simp only [writes, hw, Delivers]
      rcases Nat.eq_zero_or_pos j with rfl | hjpos
      · have hno : takes rs = false := by
          cases ht : takes rs with
          | false => rfl
          | true => exact absurd (htakes.mp ht) (by omega)
        have hnil : headerSpan 0 = [] := rfl
        simp only [hno, hnil, true_and, List.append_nil, headerSpan_prefix hlt, hst, false_imp_iff]
        exact ih
      · refine ⟨fun h => ?_, fun h => absurd (htakes.mpr hjpos) (by simp [h.1])⟩
        rw [headerSpan_pos hjpos] at h
        exact (hrepeat _ h.1).elim

/-- The exact condition under which a response is delivered byte by byte: once the socket has taken
    a part of the header it takes no byte in a later call, and the file is taken by one
    `sendfile`. -/
theorem write_delivers_iff (buf : Str) (file : Option Str) (offset size : Int)
    (calls : List (List SocketResult)) :
    Delivers (response buf file offset size) [] (writes (ready buf file offset size) calls) ↔
      Unbroken buf.length (window file size) calls := by
  induction calls with
  | nil => simp [writes, Delivers, Unbroken]
  | cons rs calls ih =>
    unfold Unbroken
    cases ha : acceptsAll buf.length rs with
    | some rest =>
      simp only [writes, @write_all (ready buf file offset size) buf _ _ rfl rfl ha, Delivers, List.nil_append]
      cases file with
      | some path =>
        exact @delivers_sendFile (headerSpan buf.length) _ path rfl rfl rfl rest
          calls (@delivers_file _ _ path rfl rfl rfl calls)
      | none =>
        have hresp : response buf none offset size = headerSpan buf.length := List.append_nil _
        have hfile : sendFile { ready buf none offset size with headerSent := true } rest =
            (.ok, [], { ready buf none offset size with headerSent := true }) := rfl
        have hclosed := @delivers_closed (headerSpan buf.length)
          { ready buf none offset size with headerSent := true } rfl rfl calls
        have hshort : NoShortSendfile (window none size) (rest :: calls) := noShortSendfile_zero _
        simp only [hfile, hresp, List.append_nil, hclosed, hshort, List.prefix_rfl, implies_true,
          and_self]
    | none =>
      obtain ⟨status, k, hst, hk, htakes, hw⟩ := @write_stops (ready buf file offset size) buf _ rfl rfl ha
      simp only [writes, hw, Delivers, List.nil_append, headerSpan_prefix hk, hst, false_imp_iff,
        true_and]
      split_ifs with ht
      · exact delivers_broken (htakes.mp ht) hk calls
      · obtain rfl : k = 0 := by
          rcases Nat.eq_zero_or_pos k with h0 | hpos
          · exact h0
          · exact absurd (htakes.mpr hpos) ht
        exact ih

/-- Two bytes to send, of which the socket takes one before it reports `EAGAIN`: the next call sends
    the first byte again. -/
theorem write_repeats_byte :
    ¬ ∀ (buf : Str) (file : Option Str) (offset size : Int) (calls : List (List SocketResult)),
      Delivers (response buf file offset size) [] (writes (ready buf file offset size) calls) := by
  intro h
  have h1 := h (str "OK") none 0 0 [[.accepts 1, .again], [.accepts 2]]
  have hwrites : writes (ready (str "OK") none 0 0) [[.accepts 1, .again], [.accepts 2]] =
      [(.again, [.header 0]), (.ok, [.header 0, .header 1])] := by decide
  have hresponse : response (str "OK") none 0 0 = [.header 0, .header 1] := by decide
  rw [hwrites, hresponse] at h1
  have h2 := h1.2.2.1.length_le
  simp at h2

end WriteSide

end ModularNetServer
