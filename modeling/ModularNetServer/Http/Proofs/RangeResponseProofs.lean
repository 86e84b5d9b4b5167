import ModularNetServer.Http.RangeResponse

/-!
# Which ranges are answered

`generateResponse` compares the start of a range with the size of the file and not its end. An end beyond
the file is announced as it is, an end before the start is ignored, and a suffix longer than the file is
refused.
-/

namespace ModularNetServer

open Cxx

namespace WriteSide

/-! ## The body -/

theorem filter_headerSpan (k : Nat) : (headerSpan k).filter isFile = [] := by
  rw [List.filter_eq_nil_iff]
  intro sent hsent
  obtain ⟨i, -, rfl⟩ := List.mem_map.mp hsent
  exact Bool.false_ne_true

theorem filter_fileSpan (start : Int) (k : Nat) : (fileSpan start k).filter isFile = fileSpan start k := by
  rw [List.filter_eq_self]
  intro sent hsent
  obtain ⟨i, -, rfl⟩ := List.mem_map.mp hsent
  rfl

/-- `sendFile` sends bytes of the file and leaves the header sent. -/
theorem sendFile_isFile (s : WriteSide) (rs : List SocketResult) :
    (sendFile s rs).2.1.filter isFile = (sendFile s rs).2.1 ∧
      (sendFile s rs).2.2.headerSent = s.headerSent := by
  unfold sendFile
  cases s.fileFd with
  | none => exact ⟨rfl, rfl⟩
  | some path =>
    dsimp only
    split_ifs
    · cases rs with
      | nil => exact ⟨rfl, rfl⟩
      | cons r rs =>
        cases r with
        | accepts n => exact ⟨filter_fileSpan _ _, rfl⟩
        | again => exact ⟨rfl, rfl⟩
        | fails => exact ⟨rfl, rfl⟩
    · exact ⟨rfl, rfl⟩

/-- Once the header is out nothing but the file is sent. -/
theorem bodies_writes {s : WriteSide} (hs : s.headerSent = true) (calls : List (List SocketResult)) :
    bodies (writes s calls) = writes s calls := by
  induction calls generalizing s with
  | nil => rfl
  | cons rs calls ih =>
    have hw : write s rs = sendFile s rs := by simp [write, hs]
    obtain ⟨hfile, hsent⟩ := sendFile_isFile s rs
    have hrest := ih (hsent.trans hs)
    unfold bodies at hrest ⊢
    simp only [writes, hw, List.map_cons, hfile, hrest]

/-- The file of a response is sent as it should be if and only if no `sendfile` is short. -/
theorem bodies_deliver_iff {s : WriteSide} {path : Str} (hs : s.headerSent = false)
    (hf : s.fileFd = some path) (hb : s.fileBytesSent = 0) (calls : List (List SocketResult)) :
    Delivers (fileSpan s.fileOffset s.fileResponseSize.toNat) [] (bodies (writes s calls)) ↔
      TakesFileWhole s.writeBuf.length s.fileResponseSize.toNat calls := by
  induction calls with
  | nil => simp [bodies, writes, Delivers, TakesFileWhole]
  | cons rs calls ih =>
    unfold TakesFileWhole
    cases ha : acceptsAll s.writeBuf.length rs with
    | none =>
      obtain ⟨status, k, hstatus, -, -, hw⟩ := write_stops hs rfl ha
      unfold bodies at ih ⊢
      simp only [writes, hw, List.map_cons, filter_headerSpan, Delivers, List.append_nil, List.nil_prefix,
        hstatus, false_imp_iff, true_and]
      exact ih
    | some rest =>
      have hout := @delivers_file [] { s with headerSent := true } path rfl hf hb calls
      have hfile := @delivers_sendFile [] { s with headerSent := true } path rfl hf hb rest calls hout
      obtain ⟨hfilter, hsent⟩ := sendFile_isFile { s with headerSent := true } rest
      have hrest := bodies_writes (s := (sendFile { s with headerSent := true } rest).2.2) hsent calls
      dsimp only
      rw [← hfile]
      unfold bodies at hrest ⊢
      simp only [writes, write_all hs rfl ha, List.map_cons, List.filter_append, filter_headerSpan, hfilter,
        hrest, Delivers, List.nil_append]

/-- Where there is nothing to send the socket is not asked. -/
theorem takesFileWhole_zero (len : Nat) (calls : List (List SocketResult)) : TakesFileWhole len 0 calls := by
  induction calls with
  | nil => trivial
  | cons rs calls ih =>
    unfold TakesFileWhole
    split
    · exact noShortSendfile_zero _
    · exact ih

end WriteSide

/-! ## The range -/

theorem withRange_eq (base : HttpBase) (value : Str) :
    base.withRange value =
      { base with
        requestHeaders := base.requestHeaders.insert (str "Range") value
        range := base.range.afterValue value } := by
  have hvalue : HttpBase.getHeader
      { base with requestHeaders := base.requestHeaders.insert (str "Range") value } (str "Range") = value :=
    HttpBase.getHeader_of_insert rfl
  rw [HttpBase.withRange, HttpBase.parseRange_eq, hvalue]

/-- What `generateResponse` can meet as a range: the start is −1 only if it is absent. -/
structure ByteRange.Parsed (range : ByteRange) : Prop where
  valid : range.isValid = true
  start : range.start = -1 ∨ 0 ≤ range.start
  fits : range.start < 2 ^ 31
  fitsStop : -2 ^ 31 ≤ range.stop ∧ range.stop < 2 ^ 31

theorem parseBound_unset {part : Str} {n : Int} (h : HttpBase.parseBound part (-1) = .ok n) :
    -2 ^ 31 ≤ n ∧ n < 2 ^ 31 := by
  rcases parseBound_ok h with ⟨-, rfl⟩ | ⟨-, hn⟩
  · decide
  · exact stoi_bounds hn

theorem parsed_afterValue {value : Str} (h : (ByteRange.unset.afterValue value).isValid = true) :
    (ByteRange.unset.afterValue value).Parsed := by
  rcases ByteRange.afterValue_cases ByteRange.unset value with ⟨-, heq⟩ | ⟨-, -, heq⟩ | ⟨first, last, hparts, heq⟩
  · rw [heq] at h
    cases h
  · rw [heq] at h
    cases h
  · rw [heq] at h ⊢
    obtain ⟨hfirst, hlast⟩ := ByteRange.afterParts_isValid_iff.mp h
    obtain ⟨start, hstart⟩ := ByteRange.exists_parseBound hfirst (-1)
    obtain ⟨stop, hstop⟩ := ByteRange.exists_parseBound hlast (-1)
    have hafter : ByteRange.unset.afterParts first last = ⟨start, stop, true⟩ := by
      unfold ByteRange.afterParts ByteRange.unset
      dsimp only
      rw [hstart]
      dsimp only
      rw [hstop]
    rw [hafter]
    refine ⟨rfl, ?_, (parseBound_unset hstart).2, parseBound_unset hstop⟩
    rcases parseBound_ok hstart with ⟨-, rfl⟩ | ⟨-, hn⟩
    · exact .inl rfl
    · exact .inr (stoi_nonneg hparts.2 hn)

namespace HttpConn

variable {range : ByteRange} {size : Int}

/-! ## The window -/

/-- A range that asks for something is given a window of exactly that. -/
theorem chooseWindow_satisfiable (hrange : range.Parsed) (hsize : size < 2 ^ 31)
    (hinside : range.EndsInside size) (hasks : ∃ p, range.Asks size p) :
    ∃ offset length, 0 ≤ offset ∧ 1 ≤ length ∧ offset + length ≤ size ∧
      (∀ p, range.Asks size p ↔ offset ≤ p ∧ p < offset + length) ∧
      chooseWindow range 0 size = ⟨offset, length, 206, str "Partial Content", length⟩ := by
  obtain ⟨p, hp0, hpsize, hp⟩ := hasks
  obtain ⟨hends, hsuffix⟩ := hinside
  unfold chooseWindow
  rw [if_pos hrange.valid]
  rcases hrange.start with hnone | hstart
  · -- the last bytes
    rw [if_pos hnone] at hp
    have hstop := hsuffix hnone (by omega)
    refine ⟨size - range.stop, range.stop, by omega, by omega, by omega, ?_, ?_⟩
    · intro q
      unfold ByteRange.Asks
      rw [if_pos hnone]
      omega
    · rw [if_neg (by omega), if_pos ⟨hnone, by omega, hstop⟩]
  · rw [if_neg (by omega)] at hp
    have hlt : range.start < size := by omega
    rw [if_pos ⟨hstart, hlt⟩]
    by_cases hopen : range.stop = -1
    · refine ⟨range.start, size - range.start, hstart, by omega, by omega, ?_, ?_⟩
      · intro q
        unfold ByteRange.Asks
        rw [if_neg (by omega)]
        omega
      · rw [if_neg (by omega)]
    · obtain ⟨hle, hstop⟩ := (hends hstart hlt).resolve_left hopen
      have hfits : toInt32 (range.stop - range.start + 1) = range.stop - range.start + 1 :=
        toInt32_of_lt (by omega) (by omega)
      refine ⟨range.start, range.stop - range.start + 1, hstart, by omega, by omega, ?_, ?_⟩
      · intro q
        unfold ByteRange.Asks
        rw [if_neg (by omega)]
        omega
      · rw [if_pos ⟨hopen, hle⟩, hfits]

/-- A range that asks for nothing is refused. -/
theorem chooseWindow_unsatisfiable (hrange : range.Parsed) (hinside : range.EndsInside size)
    (hnone : ¬ ∃ p, range.Asks size p) :
    chooseWindow range 0 size = ⟨0, 0, 416, str "Range Not Satisfiable", 0⟩ := by
  obtain ⟨hends, -⟩ := hinside
  unfold chooseWindow
  rw [if_pos hrange.valid, if_neg, if_neg]
  · rintro ⟨hstart, hpos, hle⟩
    refine hnone ⟨size - range.stop, by omega, by omega, ?_⟩
    rw [if_pos hstart]
  · rintro ⟨hstart, hlt⟩
    refine hnone ⟨range.start, hstart, hlt, ?_⟩
    rw [if_neg (by omega)]
    have hstop := hends hstart hlt
    omega

/-- No expression overflows. -/
theorem intValues_fit (hrange : range.Parsed) (h0 : 0 ≤ size) (hsize : size < 2 ^ 31)
    (hinside : range.EndsInside size) : ∀ i ∈ range.intValues size, FitsInt i := by
  have hstop := hrange.fitsStop
  have hends := hinside.1
  intro i hi
  unfold ByteRange.intValues at hi
  unfold FitsInt
  rcases List.mem_append.mp hi with hi | hi
  · split_ifs at hi <;> simp only [List.mem_cons, List.not_mem_nil, or_false] at hi <;> omega
  · by_cases hasks : ∃ p, range.Asks size p
    · obtain ⟨offset, length, hoffset, hlength, hle, -, hwindow⟩ :=
        chooseWindow_satisfiable hrange hsize hinside hasks
      rw [hwindow, if_pos rfl] at hi
      simp only [List.mem_cons, List.not_mem_nil, or_false] at hi
      omega
    · rw [chooseWindow_unsatisfiable hrange hinside hasks, if_neg (by decide)] at hi
      cases hi

/-- Otherwise an expression overflows, or the window is not what the range asks for. -/
theorem chooseWindow_outside (hrange : range.Parsed) (houtside : ¬ range.EndsInside size) :
    (∃ i ∈ range.intValues size, ¬ FitsInt i) ∨
      (∃ p, range.Asks size p) ∧ ((chooseWindow range 0 size).responseSize < 1 ∨
        size < (chooseWindow range 0 size).offset + (chooseWindow range 0 size).responseSize) ∨
      (¬ ∃ p, range.Asks size p) ∧ (chooseWindow range 0 size).responseSize ≠ 0 := by
  have hstop := hrange.fitsStop
  unfold ByteRange.EndsInside at houtside
  rw [not_and_or] at houtside
  rcases houtside with hends | hsuffix
  · push Not at hends
    obtain ⟨hstart, hlt, hpresent, hbeyond⟩ := hends
    by_cases hle : range.start ≤ range.stop
    · have hlast := hbeyond hle
      by_cases hover : range.stop - range.start + 1 < 2 ^ 31
      · -- an end beyond the file
        refine .inr (.inl ⟨⟨range.start, hstart, hlt, ?_⟩, .inr ?_⟩)
        · rw [if_neg (by omega)]
          omega
        · unfold chooseWindow
          rw [if_pos hrange.valid, if_pos ⟨hstart, hlt⟩, if_pos ⟨hpresent, hle⟩]
          dsimp only
          rw [toInt32_of_lt (by omega) hover]
          omega
      · refine .inl ⟨range.stop - range.start + 1, ?_, by unfold FitsInt; omega⟩
        unfold ByteRange.intValues
        dsimp only
        rw [if_pos ⟨hstart, hlt⟩, if_pos ⟨hpresent, hle⟩]
        simp
    · -- an end before the start
      refine .inr (.inr ⟨?_, ?_⟩)
      · rintro ⟨p, -, -, hp⟩
        rw [if_neg (by omega)] at hp
        omega
      · unfold chooseWindow
        rw [if_pos hrange.valid, if_pos ⟨hstart, hlt⟩, if_neg fun h => hle h.2]
        dsimp only
        omega
  · push Not at hsuffix
    obtain ⟨hnone, hpos, hlong⟩ := hsuffix
    -- a suffix longer than the file
    refine .inr (.inl ⟨⟨0, le_rfl, hpos, ?_⟩, .inl ?_⟩)
    · rw [if_pos hnone]
      omega
    · unfold chooseWindow
      rw [if_pos hrange.valid, if_neg (by omega), if_neg (by omega)]
      decide

/-! ## The answer -/

/-- What `generateResponse` builds for a file that exists. -/
structure SendsFile (path : Str) (base : HttpBase) (mime : Str) (size : Int) (c : HttpConn) : Prop where
  file : c.fileFd = some path
  offset : c.fileOffset = (chooseWindow base.range 0 size).offset
  length : c.fileResponseSize = (chooseWindow base.range 0 size).responseSize
  headerUnsent : c.headerSent = false
  fileUnsent : c.fileBytesSent = 0
  head : c.writeBuf = fileHeader base (chooseWindow base.range 0 size) size mime

theorem generateResponse_file (env : Environment) (w : World) (c : HttpConn) (sockfd : Int) (side : ReadSide)
    (url : Str) (h0 : 0 ≤ size) (hsize : size < 2 ^ 31)
    (hstat : w.files.stat (Scan.upTo 0 (env.webRoot ++ chosenUrl side.httpBase url)) = some size)
    (hopen : w.files.canOpen (Scan.upTo 0 (env.webRoot ++ chosenUrl side.httpBase url)) = true) :
    ∃ w' c', generateResponse env w { c.ready sockfd side with httpResponse := ⟨url, [], [], []⟩ } =
        (true, w', c') ∧
      SendsFile (Scan.upTo 0 (env.webRoot ++ chosenUrl side.httpBase url)) side.httpBase
        (getMimeType (chosenUrl side.httpBase url)) size c' := by
  have hurl : responseUrl { c.ready sockfd side with httpResponse := ⟨url, [], [], []⟩ } =
      chosenUrl side.httpBase url := rfl
  have hfits : (generateResponse env w
      { c.ready sockfd side with httpResponse := ⟨url, [], [], []⟩ }).1 = true := by
    refine generateResponse_fits env w ⟨rfl, rfl⟩ rfl ?_
    rw [fileFd_generateResponse, hurl, resolveUrl_some hstat, if_pos hopen]
    simp
  refine ⟨_, _, Prod.ext hfits rfl, ?_⟩
  unfold generateResponse at hfits ⊢
  simp only [hurl, resolveUrl_some hstat, World.files_emit, hopen, Bool.not_true, Bool.false_eq_true, if_false]
    at hfits ⊢
  unfold copyResponseData at hfits ⊢
  split_ifs at hfits ⊢
  rw [toInt32_of_lt (by omega) hsize, windowHeaders_sendRedirect]
  exact ⟨rfl, rfl, rfl, rfl, rfl, rfl⟩

theorem fileHeader_partial (base : HttpBase) {offset length : Int} (mime : Str)
    (h : -2 ^ 31 ≤ offset + length - 1 ∧ offset + length - 1 < 2 ^ 31) :
    fileHeader base ⟨offset, length, 206, str "Partial Content", length⟩ size mime =
      partialContent base.keepAlive mime offset length size := by
  unfold fileHeader windowHeaders partialContent
  rw [if_pos rfl]
  dsimp only
  rw [toInt32_of_lt h.1 h.2]

theorem fileHeader_unsatisfiable (base : HttpBase) (mime : Str) :
    fileHeader base ⟨0, 0, 416, str "Range Not Satisfiable", 0⟩ size mime =
      rangeNotSatisfiable base.keepAlive mime := rfl

/-- An interval that is not empty is known by its members. -/
theorem interval_unique {a m b n : Int} (hm : 0 < m) (hn : 0 < n)
    (h : ∀ p : Int, a ≤ p ∧ p < a + m ↔ b ≤ p ∧ p < b + n) : a = b ∧ m = n := by
  have hfirst := h a
  have hfirst' := h b
  have hlast := h (a + m - 1)
  have hlast' := h (b + n - 1)
  omega

section Answer

variable {path mime : Str} {base : HttpBase} {c : HttpConn} {calls : List (List SocketResult)}

/-- What is sent of the file, as the socket takes it. -/
theorem SendsFile.body_iff (h : SendsFile path base mime size c) (calls : List (List SocketResult)) :
    WriteSide.Delivers (WriteSide.fileSpan c.fileOffset c.fileResponseSize.toNat) []
        (WriteSide.bodies (c.toWriteSide.writes calls)) ↔
      WriteSide.TakesFileWhole c.writeBuf.length c.fileResponseSize.toNat calls :=
  WriteSide.bodies_deliver_iff h.headerUnsent h.file h.fileUnsent calls

/-- The expressions around `sendfile` stay in bounds if the window does. -/
theorem SendsFile.fitsSent (h : SendsFile path base mime size c) (hoffset : 0 ≤ c.fileOffset)
    (hinside : c.fileOffset + c.fileResponseSize < 2 ^ 31) (n : Nat) :
    ∀ i ∈ c.toWriteSide.intValues (SocketResult.taken n (c.fileResponseSize - c.fileBytesSent).toNat),
      FitsInt i := by
  have hsent := h.fileUnsent
  unfold WriteSide.intValues FitsInt
  split_ifs with hlt
  · have htaken := @WriteSide.taken_le n (c.fileResponseSize - c.fileBytesSent).toNat (by omega)
    intro i hi
    simp only [List.mem_cons, List.not_mem_nil, or_false] at hi
    omega
  · intro i hi
    cases hi

theorem SendsFile.endsInside (h : SendsFile path base mime size c) (hrange : base.range.Parsed)
    (hanswer : AnswersRange base.range base.keepAlive mime size calls c) : base.range.EndsInside size := by
  by_contra houtside
  rcases chooseWindow_outside hrange houtside with ⟨i, hi, hover⟩ | ⟨hasks, hbad⟩ | ⟨hnone, hbad⟩
  · exact hover (hanswer.fits i hi)
  · have hsends := hanswer.satisfiable hasks
    have hlength := hsends.length
    have hinside := hsends.inside
    rw [h.offset, h.length] at hinside
    rw [h.length] at hlength
    omega
  · have hsends := hanswer.unsatisfiable hnone
    rw [← h.length] at hbad
    exact hbad hsends.length

theorem SendsFile.takesWindow (h : SendsFile path base mime size c)
    (hanswer : AnswersRange base.range base.keepAlive mime size calls c) :
    TakesWindow base.range base.keepAlive mime size calls := by
  intro offset length hpos hwindow
  have hsends := hanswer.satisfiable ⟨offset, (hwindow offset).mpr ⟨le_rfl, by omega⟩⟩
  have hlength := hsends.length
  obtain ⟨rfl, rfl⟩ := interval_unique hpos (by omega) fun p => (hwindow p).symm.trans (hsends.window p)
  rw [← hsends.head]
  exact (h.body_iff calls).mp hsends.body

theorem SendsFile.answers (h : SendsFile path base mime size c) (hrange : base.range.Parsed) (h0 : 0 ≤ size)
    (hsize : size < 2 ^ 31) (hinside : base.range.EndsInside size)
    (htakes : TakesWindow base.range base.keepAlive mime size calls) :
    AnswersRange base.range base.keepAlive mime size calls c := by
  by_cases hasks : ∃ p, base.range.Asks size p
  · obtain ⟨offset, length, hoffset, hlength, hle, hwindow, hchoose⟩ :=
      chooseWindow_satisfiable hrange hsize hinside hasks
    have hhead := h.head
    have hoff : c.fileOffset = offset := by rw [h.offset, hchoose]
    have hlen : c.fileResponseSize = length := by rw [h.length, hchoose]
    rw [hchoose, fileHeader_partial base mime (by omega), ← hoff, ← hlen] at hhead
    rw [← hoff, ← hlen] at hwindow
    refine ⟨intValues_fit hrange h0 hsize hinside, h.fitsSent (by omega) (by omega), ?_,
      fun hnone => absurd hasks hnone⟩
    intro _
    refine ⟨by omega, by omega, by omega, hwindow, hhead, ?_⟩
    rw [h.body_iff, hhead]
    exact htakes c.fileOffset c.fileResponseSize (by omega) hwindow
  · have hchoose := chooseWindow_unsatisfiable hrange hinside hasks
    have hhead := h.head
    have hoff : c.fileOffset = 0 := by rw [h.offset, hchoose]
    have hlen : c.fileResponseSize = 0 := by rw [h.length, hchoose]
    rw [hchoose, fileHeader_unsatisfiable] at hhead
    refine ⟨intValues_fit hrange h0 hsize hinside, h.fitsSent (by omega) (by omega),
      fun hsome => absurd hsome hasks, ?_⟩
    intro _
    refine ⟨hlen, hhead, ?_⟩
    have hbody := (h.body_iff calls).mpr (by rw [hlen]; exact WriteSide.takesFileWhole_zero _ _)
    rw [hlen] at hbody
    exact hbody

end Answer

/-- A range on an existing file is answered as it should be exactly when its end is absent or inside the file
    and not before its start, a suffix is not longer than the file, and the socket takes the window whole. -/
theorem generateResponse_range_iff (env : Environment) (w : World) (c : HttpConn) (sockfd : Int)
    (side : ReadSide) {base : HttpBase} (hbase : base.range = ByteRange.unset) {value : Str}
    (hvalid : (base.withRange value).range.isValid = true) (url : Str) (h0 : 0 ≤ size) (hsize : size < 2 ^ 31)
    (hstat : w.files.stat (Scan.upTo 0 (env.webRoot ++ chosenUrl base url)) = some size)
    (hopen : w.files.canOpen (Scan.upTo 0 (env.webRoot ++ chosenUrl base url)) = true)
    (calls : List (List SocketResult)) :
    ∃ w' c', generateResponse env w { c.ready sockfd { side with httpBase := base.withRange value } with
          httpResponse := ⟨url, [], [], []⟩ } = (true, w', c') ∧
      (AnswersRange (base.withRange value).range base.keepAlive (getMimeType (chosenUrl base url)) size calls c' ↔
        (base.withRange value).range.EndsInside size ∧
          TakesWindow (base.withRange value).range base.keepAlive (getMimeType (chosenUrl base url)) size
            calls) := by
  have hrange : (base.withRange value).range.Parsed := by
    rw [withRange_eq, hbase] at hvalid ⊢
    exact parsed_afterValue hvalid
  have hkeep : (base.withRange value).keepAlive = base.keepAlive := by rw [withRange_eq]
  have hurl : chosenUrl (base.withRange value) url = chosenUrl base url := by rw [withRange_eq]; rfl
  rw [← hurl] at hstat hopen ⊢
  rw [← hkeep]
  obtain ⟨w', c', hgen, hfile⟩ := generateResponse_file env w c sockfd
    { side with httpBase := base.withRange value } url h0 hsize hstat hopen
  refine ⟨w', c', hgen, ?_⟩
  constructor
  · intro hanswer
    exact ⟨hfile.endsInside hrange hanswer, hfile.takesWindow hanswer⟩
  · rintro ⟨hinside, htakes⟩
    exact hfile.answers hrange h0 hsize hinside htakes

/-- A file system with one page of the given size. -/
def pageWorld (size : Int) : World :=
  World.start (fun _ => 0) (fun _ => 0) (str "1") (fun _ _ => ⟨true, true, true, true, true, true, []⟩)
    ⟨fun path => if path = str "/srv/src/www/page.html" then some size else none,
      fun path => path = str "/srv/src/www/page.html", 0⟩ false false

/-- A connection that has received a request for the page with a range. -/
def pageConn (value : Str) : HttpConn :=
  { (fresh 5 []).ready 5 { ReadSide.init [] with httpBase := (HttpBase.init []).withRange value } with
    httpResponse := ⟨str "/page.html", [], [], []⟩ }

theorem generateResponse_range_iff_page :
    ∃ w' c', generateResponse srvEnvironment (pageWorld 5) (pageConn (str "bytes=1-3")) = (true, w', c') ∧
      (AnswersRange ((HttpBase.init []).withRange (str "bytes=1-3")).range false
          (getMimeType (str "/page.html")) 5 [[.accepts 4096, .accepts 5]] c' ↔
        ((HttpBase.init []).withRange (str "bytes=1-3")).range.EndsInside 5 ∧
          TakesWindow ((HttpBase.init []).withRange (str "bytes=1-3")).range false
            (getMimeType (str "/page.html")) 5 [[.accepts 4096, .accepts 5]]) :=
  generateResponse_range_iff srvEnvironment (pageWorld 5) (fresh 5 []) 5 (ReadSide.init []) rfl (by decide)
    (str "/page.html") (by decide) (by decide) (by decide) (by decide) [[.accepts 4096, .accepts 5]]

/-- Ten bytes of a file of five are announced. -/
theorem end_beyond_file :
    ∃ w' c', generateResponse srvEnvironment (pageWorld 5) (pageConn (str "bytes=0-9")) = (true, w', c') ∧
      ¬ AnswersRange ((HttpBase.init []).withRange (str "bytes=0-9")).range false
        (getMimeType (str "/page.html")) 5 [] c' := by
  obtain ⟨w', c', hgen, hfile⟩ := @generateResponse_file 5 srvEnvironment (pageWorld 5) (fresh 5 []) 5
    { ReadSide.init [] with httpBase := (HttpBase.init []).withRange (str "bytes=0-9") } (str "/page.html")
    (by decide) (by decide) (by decide) (by decide)
  refine ⟨w', c', hgen, ?_⟩
  intro hanswer
  have hsends := hanswer.satisfiable ⟨0, by decide, by decide, by decide⟩
  have hinside := hsends.inside
  rw [hfile.offset, hfile.length] at hinside
  exact absurd hinside (by decide)

end HttpConn

end ModularNetServer
