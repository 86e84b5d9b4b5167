import ModularNetServer.Http.Wire
import ModularNetServer.Http.Proofs.FileDescriptorProofs
import ModularNetServer.Http.Proofs.RangeResponseProofs
import ModularNetServer.Http.Proofs.ResponseFramingProofs

/-!
# A client reads the responses in order

What the socket has taken, followed by what the connection has still to send, is the responses that have
been built, one after the other. While a request is to come nothing is left to send. A response with the type of
JSON has the text of a value as its body, but for the echo.
-/

namespace ModularNetServer

open Cxx HttpReader

namespace WriteSide

variable {contents : Str → Str} {s : WriteSide} {rs : List SocketResult}

/-! ## One `write` -/

/-- Reading a list by the positions of a span gives the span. -/
theorem filterMap_span {α : Type*} (l : List α) (a k : Nat) :
    (List.range' a k).filterMap (fun i => l[i]?) = (l.drop a).take k := by
  induction k generalizing a with
  | zero => simp
  | succ k ih =>
    rw [List.range'_succ, List.filterMap_cons, ih]
    rcases Nat.lt_or_ge a l.length with hlt | hge
    · rw [List.getElem?_eq_getElem hlt, List.drop_eq_getElem_cons hlt]
      rfl
    · rw [List.getElem?_eq_none hge, List.drop_eq_nil_of_le hge, List.drop_eq_nil_of_le (by omega)]
      simp

theorem bytes_headerSpan (s : WriteSide) :
    (headerSpan s.writeBuf.length).filterMap (s.byteOf contents) = s.writeBuf := by
  have hspan := filterMap_span s.writeBuf 0 s.writeBuf.length
  rw [List.drop_zero, List.take_length] at hspan
  unfold headerSpan
  rw [List.filterMap_map]
  exact hspan

theorem bytes_fileSpan {path : Str} (hfile : s.fileFd = some path) {start : Int} (hstart : 0 ≤ start) (k : Nat) :
    (fileSpan start k).filterMap (s.byteOf contents) = ((contents path).drop start.toNat).take k := by
  have hspan := filterMap_span (contents path) start.toNat k
  have hbyte : ∀ i : Nat, s.byteOf contents (.file (start + i)) = (contents path)[start.toNat + i]? := by
    intro i
    have hnat : (start + i).toNat = start.toNat + i := by omega
    simp only [byteOf, hfile, Option.bind_some, hnat]
  rw [← hspan, fileSpan, List.filterMap_map, List.range'_eq_map_range, List.filterMap_map]
  exact List.filterMap_congr fun i _ => hbyte i

/-- The second half of `write` sends what is left of the file, or nothing. -/
theorem sendFile_unsent (hs : s.headerSent = true) (hfile : s.fileFd ≠ none → s.fileBytesSent = 0)
    (hholds : s.FileHolds contents) (hwhole : NoShortSendfile (window s.fileFd s.fileResponseSize) [rs]) :
    (sendFile s rs).2.1.filterMap (s.byteOf contents) ++ (sendFile s rs).2.2.unsent contents =
      s.unsent contents := by
  rcases hfd : s.fileFd with _ | path
  · simp [sendFile, hfd]
  obtain ⟨hoffset, hsize, -⟩ := hholds path hfd
  have hzero := hfile (by simp [hfd])
  have hafter : ∀ b, ({ s with fileBytesSent := b, fileFd := none } : WriteSide).unsent contents = [] := by
    intro b
    simp [unsent, unsentFile, hs]
  have hbefore : s.unsent contents =
      ((contents path).drop s.fileOffset.toNat).take s.fileResponseSize.toNat := by
    simp [unsent, unsentFile, hs, hfd, hzero]
  rw [hfd] at hwhole
  unfold sendFile
  simp only [hfd, hzero]
  split_ifs with hleft
  · rcases rs with _ | ⟨_ | _ | _, rs⟩
    · simp
    · rename_i n
      have hall : SocketResult.taken n s.fileResponseSize.toNat = s.fileResponseSize.toNat := by
        have hle : s.fileResponseSize.toNat ≤ max 1 n := hwhole
        unfold SocketResult.taken
        omega
      simp only [Int.add_zero, Int.sub_zero, hall]
      rw [hafter, hbefore, bytes_fileSpan hfd hoffset, List.append_nil]
    · simp
    · simp
  · have hnone : s.fileResponseSize.toNat = 0 := by omega
    have hclosed := hafter s.fileBytesSent
    rw [hzero] at hclosed
    rw [hbefore, hnone]
    simpa using hclosed

/-- **One `write`**: what the socket takes, followed by what is left, is what was left before. -/
theorem write_unsent (hfile : s.fileFd ≠ none → s.fileBytesSent = 0) (hholds : s.FileHolds contents)
    (hwhole : s.TakesWhole rs) :
    (s.write rs).2.1.filterMap (s.byteOf contents) ++ (s.write rs).2.2.unsent contents =
      s.unsent contents := by
  unfold TakesWhole at hwhole
  by_cases hsent : s.headerSent = true
  · rw [if_pos hsent] at hwhole
    have hwrite : s.write rs = sendFile s rs := by simp [write, hsent]
    rw [hwrite]
    exact sendFile_unsent hsent hfile hholds hwhole
  rw [if_neg hsent] at hwhole
  have hfalse : s.headerSent = false := by simpa using hsent
  rcases hall : acceptsAll s.writeBuf.length rs with _ | rest
  · obtain ⟨status, k, -, -, htakes, hwrite⟩ := write_stops hfalse rfl hall
    have hk : k = 0 := by
      by_contra hk
      have hyes := htakes.mpr (by omega)
      rw [hwhole.1 hall] at hyes
      cases hyes
    rw [hwrite, hk]
    rfl
  · have hshort : NoShortSendfile (window s.fileFd s.fileResponseSize) [rest] := hwhole.2 rest hall
    have hfile' := @sendFile_unsent contents { s with headerSent := true } rest rfl hfile hholds hshort
    have hsame : s.unsent contents = s.writeBuf ++ ({ s with headerSent := true } : WriteSide).unsent contents := by
      simp [unsent, unsentFile, hfalse]
    rw [write_all hfalse rfl hall, List.filterMap_append, bytes_headerSpan, hsame, List.append_assoc]
    exact congrArg (s.writeBuf ++ ·) hfile'

/-- A call closes the file, or changes at most whether the header has been sent. -/
theorem write_file (s : WriteSide) (rs : List SocketResult) :
    (s.write rs).2.2.fileFd = none ∨ ∃ b, (s.write rs).2.2 = { s with headerSent := b } := by
  unfold write
  by_cases hsent : s.headerSent = true
  · rw [if_pos hsent]
    rcases sendFile_cases s rs with ⟨-, hnone⟩ | ⟨-, hsame, -⟩
    · exact .inl hnone
    · exact .inr ⟨s.headerSent, hsame⟩
  rw [if_neg hsent]
  rcases sendHeader s.writeBuf.length 0 rs with ⟨status | rest, sent⟩
  · exact .inr ⟨s.headerSent, rfl⟩
  · rcases sendFile_cases { s with headerSent := true } rest with ⟨-, hnone⟩ | ⟨-, hsame, -⟩
    · exact .inl hnone
    · exact .inr ⟨true, hsame⟩

/-- A call that returns `OK` leaves nothing to be sent. -/
theorem write_ok (h : (s.write rs).1 = .ok) : (s.write rs).2.2.unsent contents = [] := by
  have hfile : (s.write rs).2.2.fileFd = none := by
    rcases write_cases s rs with ⟨-, hnone⟩ | ⟨hne, -⟩
    · exact hnone
    · exact absurd h hne
  have hsent : (s.write rs).2.2.headerSent = true := by
    by_cases hs : s.headerSent = true
    · have hwrite : s.write rs = sendFile s rs := by simp [write, hs]
      rw [hwrite]
      exact (sendFile_isFile s rs).2.trans hs
    · have hfalse : s.headerSent = false := by simpa using hs
      rcases hall : acceptsAll s.writeBuf.length rs with _ | rest
      · obtain ⟨status, k, hne, -, -, hwrite⟩ := write_stops hfalse rfl hall
        rw [hwrite] at h
        exact absurd h hne
      · rw [write_all hfalse rfl hall]
        exact (sendFile_isFile { s with headerSent := true } rest).2
  simp [unsent, unsentFile, hfile, hsent]

end WriteSide

/-! ## One response -/

/-- A header that a response may have besides those that `buildResponseHeader` writes. -/
structure HttpResponse.IsHarmless (kv : Str × Str) : Prop where
  name : HttpResponse.NoLineEnd kv.1
  value : HttpResponse.NoLineEnd kv.2
  colon : 58 ∉ kv.1
  contentLength : ¬ LetterCase.Same kv.1 (str "Content-Length")
  connection : ¬ LetterCase.Same kv.1 (str "Connection")

namespace HttpConn

open HttpResponse

variable {env : Environment} {contents : Str → Str} {w w' : World} {c c' : HttpConn} {r r' : HttpResponse}

/-- What `buildResponseHeader` begins is read. -/
theorem isReadAs_framed {statusCode : Int} {statusText contentType body : Str}
    (hunsent : c.unsent contents = (r.buildResponseHeader c.httpBase.keepAlive statusCode statusText contentType
      (toInt32 body.length)).responseData ++ body)
    (hbody : body.length < 2 ^ 31) (hcookies : r.responseCookies = [])
    (hheaders : ∀ kv ∈ r.responseHeaders, IsHarmless kv) (htext : NoLineEnd statusText)
    (htype : NoLineEnd contentType) (hstrip : strip contentType = contentType)
    (hfile : c.fileFd ≠ none → body = c.unsentFile contents)
    (hjson : contentType = str "application/json" → Json.IsText body ∨
      (Router.route env c.httpBase.method c.httpBase.url = some .apiEcho ∧ body = c.httpBase.requestBody)) :
    ∃ answer, c.IsReadAs contents answer ∧ c.SpeaksJson env answer := by
  have hwritable : IsWritable always
      (framed r c.httpBase.keepAlive statusCode statusText contentType body) := by
    refine isWritable_framed ?_ ?_ ?_ htext htype hstrip rfl
    · exact fun kv hkv => ⟨(hheaders kv hkv).name, (hheaders kv hkv).value, (hheaders kv hkv).colon⟩
    · rw [hcookies]
      simp
    · exact fun kv hkv => (hheaders kv hkv).contentLength
  have hback := read_write hwritable []
  rw [List.append_nil, stripped_framed _ _ _ _ hstrip, ← write_framed _ _ _ _ _ hbody, ← hunsent] at hback
  refine ⟨_, ⟨hback, rfl, valuesOf_connection fun kv hkv => (hheaders kv hkv).connection, hfile⟩, fun hvalues => ?_⟩
  have hsame : LetterCase.Same (str "Content-Type") (str "Content-Type") := by decide
  have htype : valuesOf (str "Content-Type") ((str "Content-Type", contentType) :: _) = _ := hvalues
  rw [valuesOf_cons, if_pos hsame] at htype
  exact hjson (List.cons.inj htype).1

/-! ## Built by a handler -/

/-- What a call sends as JSON is the text of a value, or the body of the request if the handler echoes. -/
def SendsText (base : HttpBase) (echoes : Prop) (s : Send) : Prop :=
  s.contentType = str "application/json" → ∀ body, s.body = .ok body →
    Json.IsText body ∨ (echoes ∧ body = base.requestBody)

/-- The data are as before, or a sending call has written them. -/
def SendsOnce (base : HttpBase) (echoes : Prop) (r r' : HttpResponse) : Prop :=
  r'.responseData = r.responseData ∨
    ∃ s : Send, NoLineEnd s.statusText ∧ SendsText base echoes s ∧ s.perform base.keepAlive r = .ok r'

theorem sendsOnce_json {w1 : World} {base : HttpBase} {code : Int} {data : Json} {echoes : Prop}
    (hnumbers : ∀ n ∈ data.toValue.numbers, JsonReader.isNumber n = true)
    (h : answer w1 (r.sendJson base.keepAlive code data) = .ok (w', r')) : SendsOnce base echoes r r' :=
  .inr ⟨.json code data, (by decide : NoLineEnd (str "OK")),
    fun _ _ hbody => .inl (Json.isText_dump hnumbers hbody), answer_length h⟩

/-- The numbers that `buildRESTfulJson` writes. -/
theorem numbers_buildRESTfulJson {code : Int} {message : Str} {data : Json}
    (hnumbers : ∀ n ∈ data.toValue.numbers, JsonReader.isNumber n = true) :
    ∀ n ∈ (buildRESTfulJson code message data).toValue.numbers, JsonReader.isNumber n = true := by
  have hdata : ∀ n ∈ (if data.isEmpty then Json.null else data).toValue.numbers, JsonReader.isNumber n = true := by
    split_ifs
    · exact fun n hn => absurd hn List.not_mem_nil
    · exact hnumbers
  intro n hn
  simp only [buildRESTfulJson, Json.toValue, Json.membersValue, JsonReader.Value.numbers, JsonReader.membersNumbers,
    List.append_nil, List.mem_append, List.mem_singleton] at hn
  rcases hn with rfl | hn
  · exact JsonReader.isNumber_toString code
  · exact hdata n hn

theorem sendsOnce_restful {w1 : World} {base : HttpBase} {code : Int} {message : Str} {data : Json} {echoes : Prop}
    (hnumbers : ∀ n ∈ data.toValue.numbers, JsonReader.isNumber n = true)
    (h : answer w1 (r.sendRESTfulJson base.keepAlive code message data) = .ok (w', r')) :
    SendsOnce base echoes r r' :=
  .inr ⟨.restful code message data, (by decide : NoLineEnd (str "OK")),
    fun _ _ hbody => .inl (Json.isText_dump (numbers_buildRESTfulJson hnumbers) hbody), answer_length h⟩

/-- The numbers of the handlers are integers. -/
theorem isNumber_integers {data : Json} (ns : List Int) (h : data.toValue.numbers = ns.map Cxx.toString) :
    ∀ n ∈ data.toValue.numbers, JsonReader.isNumber n = true := by
  rw [h]
  intro n hn
  obtain ⟨i, -, rfl⟩ := List.mem_map.mp hn
  exact JsonReader.isNumber_toString i

theorem sendsOnce_login {base : HttpBase} {echoes : Prop}
    (h : UserController.login env base w r = .ok (w', r')) : SendsOnce base echoes r r' := by
  unfold UserController.login at h
  generalize w.isLimit (str "login_ip") base.ip = limit at h
  obtain ⟨limited, w1⟩ := limit
  dsimp only at h
  split_ifs at h
  · exact sendsOnce_restful (isNumber_integers [] rfl) h
  · split at h
    · cases h
    · cases h
      exact .inl rfl
    · exact sendsOnce_restful (isNumber_integers [0] rfl) h

theorem sendsOnce_txTest {base : HttpBase} {echoes : Prop}
    (h : TestTxController.handle base w r = .ok (w', r')) : SendsOnce base echoes r r' := by
  unfold TestTxController.handle at h
  rcases husername : TestTxController.stringMember base.requestJson (str "username") with e | username
  all_goals simp only [husername] at h
  · cases h
  rcases hage : TestTxController.stringMember base.requestJson (str "age") with e | age
  all_goals simp only [hage] at h
  · cases h
  rcases hstoi : stoi age with e | n
  all_goals simp only [hstoi] at h
  · cases h
  rcases hinsert : TextTxDao.insertUser w username n with e | ⟨_ | _, w1⟩
  all_goals simp only [hinsert] at h
  · cases h
  · exact sendsOnce_restful (isNumber_integers [] rfl) h
  · exact sendsOnce_restful (isNumber_integers [] rfl) h

theorem sendsOnce_run {base : HttpBase} {handler : Handler} (h : handler.run env base w r = .ok (w', r')) :
    SendsOnce base (handler = .apiEcho) r r' := by
  cases handler with
  | apiHello =>
    simp only [Handler.run, TestController.hello] at h
    exact sendsOnce_json (isNumber_integers [] rfl) h
  | apiTime =>
    simp only [Handler.run, TestController.time] at h
    exact sendsOnce_json (isNumber_integers [w.wallClock w.readings] rfl) h
  | apiEcho =>
    cases h
    refine .inr ⟨.jsonText 200 base.requestBody, (by decide : NoLineEnd (str "OK")), ?_, rfl⟩
    rintro - body hbody
    cases hbody
    exact .inr ⟨rfl, rfl⟩
  | apiInfo =>
    simp only [Handler.run, ModularNetServer.apiInfo] at h
    exact sendsOnce_json (isNumber_integers [env.info.httpPort, env.info.threadNum] rfl) h
  | login => exact sendsOnce_login h
  | registerUser =>
    cases h
    exact .inl rfl
  | checkToken =>
    simp only [Handler.run, UserController.checkToken] at h
    split_ifs at h
    · exact sendsOnce_restful (isNumber_integers [] rfl) h
    · exact sendsOnce_restful (isNumber_integers [] rfl) h
  | txTest => exact sendsOnce_txTest h

/-- What is done with a request writes at most one response. -/
theorem sendsOnce_respond {verdict : Verdict} {base : HttpBase}
    (h : respond env verdict base w r = .ok (w', r')) :
    SendsOnce base (Router.route env base.method base.url = some .apiEcho) r r' := by
  cases verdict with
  | forbidden =>
    simp only [respond] at h
    exact sendsOnce_restful (isNumber_integers [] rfl) h
  | unauthenticated =>
    simp only [respond] at h
    exact sendsOnce_restful (isNumber_integers [] rfl) h
  | dispatch =>
    simp only [respond, Router.dispatch] at h
    rcases hroute : Router.route env base.method base.url with _ | handler
    all_goals simp only [hroute] at h
    · split_ifs at h
      · cases h
        exact .inl rfl
      · cases h
        have hhtml : str "text/html" ≠ str "application/json" := by decide
        exact .inr ⟨.text 404 (str "Not Found") (str "The requested URL was not found on this server."),
          (by decide : NoLineEnd (str "Not Found")), fun htype => absurd htype hhtml, rfl⟩
    · rw [Option.some.injEq]
      exact sendsOnce_run h

/-- A response that a sending call has written is read. -/
theorem isReadAs_perform {s : Send} (hperform : s.perform c.httpBase.keepAlive r = .ok r')
    (htext : NoLineEnd s.statusText)
    (hsends : SendsText c.httpBase (Router.route env c.httpBase.method c.httpBase.url = some .apiEcho) s)
    (hr : r.Plain) (hlength : r'.responseData.length < 4096)
    (hunsent : c.unsent contents = r'.responseData) (hfile : c.fileFd = none) :
    ∃ answer, c.IsReadAs contents answer ∧ c.SpeaksJson env answer := by
  obtain ⟨body, hbody, hdata⟩ := Send.perform_data hperform
  have hshort : body.length < 2 ^ 31 := by
    rw [hdata, List.length_append] at hlength
    omega
  have hheaders : ∀ kv ∈ r.responseHeaders, IsHarmless kv := by
    rw [hr.headers]
    simp
  exact isReadAs_framed (hunsent.trans hdata) hshort hr.cookies hheaders htext (noLineEnd_contentType s)
    (strip_contentType s) (fun hne => absurd hfile hne) (fun htype => hsends htype body hbody)

/-! ## The header of a file -/

/-- The types of the files. -/
theorem getMimeType_mem (path : Str) : getMimeType path ∈ [str "text/html; charset=utf-8", str "text/css",
    str "application/javascript", str "image/jpeg", str "image/png", str "image/gif", str "video/mp4",
    str "application/octet-stream"] := by
  unfold getMimeType
  split_ifs <;> simp

theorem getMimeType_readable (path : Str) :
    NoLineEnd (getMimeType path) ∧ strip (getMimeType path) = getMimeType path := by
  have hall : ∀ mime ∈ [str "text/html; charset=utf-8", str "text/css", str "application/javascript",
      str "image/jpeg", str "image/png", str "image/gif", str "video/mp4", str "application/octet-stream"],
      NoLineEnd mime ∧ strip mime = mime := by decide
  exact hall _ (getMimeType_mem path)

theorem toInt32_lt (i : Int) : toInt32 i < 2 ^ 31 := by
  have hhigh := @Int.bmod_lt i (2 ^ 32) (by decide)
  unfold toInt32
  omega

/-- The length that is announced is that of the window. -/
theorem chooseWindow_readable (range : ByteRange) {fileSize : Int} (h : fileSize < 2 ^ 31) :
    (chooseWindow range 0 fileSize).contentLength = (chooseWindow range 0 fileSize).responseSize ∧
      (chooseWindow range 0 fileSize).responseSize < 2 ^ 31 ∧
      NoLineEnd (chooseWindow range 0 fileSize).statusText := by
  have htexts : NoLineEnd (str "Partial Content") ∧ NoLineEnd (str "Range Not Satisfiable") ∧
      NoLineEnd (str "OK") := by decide
  unfold chooseWindow
  split_ifs with hvalid hstart hstop hsuffix
  · exact ⟨rfl, toInt32_lt _, htexts.1⟩
  · exact ⟨rfl, by dsimp only; omega, htexts.1⟩
  · exact ⟨rfl, by dsimp only; omega, htexts.1⟩
  · exact ⟨rfl, by decide, htexts.2.1⟩
  · exact ⟨rfl, h, htexts.2.2⟩

theorem isHarmless_acceptRanges : IsHarmless (str "Accept-Ranges", str "bytes") :=
  ⟨by decide, by decide, by decide, by decide, by decide⟩

theorem isHarmless_contentRange {value : Str} (h : NoLineEnd value) :
    IsHarmless (str "Content-Range", value) where
  name := (by decide : NoLineEnd (str "Content-Range"))
  value := h
  colon := (by decide : 58 ∉ str "Content-Range")
  contentLength := (by decide : ¬ LetterCase.Same (str "Content-Range") (str "Content-Length"))
  connection := (by decide : ¬ LetterCase.Same (str "Content-Range") (str "Connection"))

theorem noLineEnd_append {s t : Str} (hs : NoLineEnd s) (ht : NoLineEnd t) : NoLineEnd (s ++ t) := by
  intro b hb
  rcases List.mem_append.mp hb with hb | hb
  · exact hs b hb
  · exact ht b hb

theorem noLineEnd_toString (i : Int) : NoLineEnd (Cxx.toString i) := by
  have hdecimal : NoLineEnd (decimal i.natAbs) := by
    intro b hb
    have hdigit := isDigit_of_mem_decimal hb
    constructor
    · rintro rfl
      exact absurd hdigit (by decide)
    · rintro rfl
      exact absurd hdigit (by decide)
  unfold Cxx.toString
  split_ifs
  · exact noLineEnd_append (by decide : NoLineEnd (str "-")) hdecimal
  · exact hdecimal

/-- The headers of a file response. -/
theorem windowHeaders_harmless (hr : r.Plain) (window : FileWindow) (fileSize : Int) :
    (∀ kv ∈ (windowHeaders window fileSize r).responseHeaders, IsHarmless kv) ∧
      (windowHeaders window fileSize r).responseCookies = [] := by
  have hne : str "Accept-Ranges" ≠ str "Content-Range" := by decide
  unfold windowHeaders
  split_ifs
  · simp only [HttpResponse.setHeader, hr.headers, hr.cookies, HttpResponse.setEntry, if_neg hne, and_true]
    intro kv hkv
    rcases List.mem_cons.mp hkv with rfl | hkv
    · exact isHarmless_acceptRanges
    · rw [List.mem_singleton] at hkv
      subst hkv
      have hmarks : NoLineEnd (str "bytes ") ∧ NoLineEnd (str "-") ∧ NoLineEnd (str "/") := by decide
      refine isHarmless_contentRange (noLineEnd_append (noLineEnd_append (noLineEnd_append (noLineEnd_append
        (noLineEnd_append ?_ ?_) ?_) ?_) ?_) (noLineEnd_toString _))
      · exact hmarks.1
      · exact noLineEnd_toString _
      · exact hmarks.2.1
      · exact noLineEnd_toString _
      · exact hmarks.2.2
  · simp only [HttpResponse.setHeader, hr.headers, hr.cookies, HttpResponse.setEntry, and_true]
    intro kv hkv
    rw [List.mem_singleton] at hkv
    subst hkv
    exact isHarmless_acceptRanges
  · rw [hr.headers, hr.cookies]
    simp

/-- A file that can be opened is about to be sent, its header first. -/
theorem generateResponse_opens (hoffset : c.fileOffset = 0) (h : (generateResponse env w c).1 = true) :
    ∃ url path size r, r = (windowHeaders (chooseWindow c.httpBase.range 0 (toInt32 size)) (toInt32 size)
        (c.httpResponse.sendRedirect url)).buildResponseHeader c.httpBase.keepAlive
          (chooseWindow c.httpBase.range 0 (toInt32 size)).statusCode
          (chooseWindow c.httpBase.range 0 (toInt32 size)).statusText (getMimeType url)
          (chooseWindow c.httpBase.range 0 (toInt32 size)).contentLength ∧
      (generateResponse env w c).2.2 = { c with
        writeBuf := r.responseData
        filePath := path
        fileTotalSize := toInt32 size
        fileFd := some (Scan.upTo 0 path)
        fileOffset := (chooseWindow c.httpBase.range 0 (toInt32 size)).offset
        fileResponseSize := (chooseWindow c.httpBase.range 0 (toInt32 size)).responseSize
        httpResponse := r } := by
  unfold generateResponse copyResponseData at h ⊢
  generalize resolveUrl env w.files c.responseUrl = file at h ⊢
  obtain ⟨url, path, size⟩ := file
  dsimp only at h ⊢
  split_ifs at h ⊢ with hopen hlarge
  rw [hoffset]
  exact ⟨url, path, size, _, rfl, rfl⟩

/-- No file is sent as JSON. -/
theorem getMimeType_ne_json (path : Str) : getMimeType path ≠ str "application/json" := by
  have hall : ∀ mime ∈ [str "text/html; charset=utf-8", str "text/css", str "application/javascript",
      str "image/jpeg", str "image/png", str "image/gif", str "video/mp4", str "application/octet-stream"],
      mime ≠ str "application/json" := by decide
  exact hall _ (getMimeType_mem path)

/-- A file response is read, if the file holds its window. -/
theorem isReadAs_generateResponse (hr : c.httpResponse.Plain) (hoffset : c.fileOffset = 0)
    (hsent : c.headerSent = false) (hbytes : c.fileBytesSent = 0) (h : (generateResponse env w c).1 = true)
    (hholds : (generateResponse env w c).2.2.FileHolds contents) :
    (∃ answer, (generateResponse env w c).2.2.IsReadAs contents answer ∧
        (generateResponse env w c).2.2.SpeaksJson env answer) ∧
      (generateResponse env w c).2.2.fileBytesSent = 0 := by
  obtain ⟨url, path, size, r, rfl, heq⟩ := generateResponse_opens hoffset h
  rw [heq] at hholds ⊢
  refine ⟨?_, hbytes⟩
  obtain ⟨hlength, hlt, htext⟩ := chooseWindow_readable c.httpBase.range (toInt32_lt size)
  generalize hwindow : chooseWindow c.httpBase.range 0 (toInt32 size) = window at hholds hlength hlt htext ⊢
  obtain ⟨hstart, hsize, hend⟩ := hholds _ rfl
  dsimp only at hstart hsize hend
  obtain ⟨htype, hstrip⟩ := getMimeType_readable url
  obtain ⟨hheaders, hcookies⟩ := windowHeaders_harmless (r := c.httpResponse.sendRedirect url)
    ⟨hr.headers, hr.cookies⟩ window (toInt32 size)
  have hbody : (((contents (Scan.upTo 0 path)).drop window.offset.toNat).take window.responseSize.toNat).length =
      window.responseSize.toNat := by
    rw [List.length_take, List.length_drop]
    omega
  have hannounced : toInt32 window.responseSize.toNat = window.contentLength := by
    rw [hlength, Int.toNat_of_nonneg hsize, toInt32_of_lt (by omega) hlt]
  refine @isReadAs_framed env contents _ (windowHeaders window (toInt32 size) (c.httpResponse.sendRedirect url))
    window.statusCode window.statusText (getMimeType url) _ ?_ (by rw [hbody]; omega) hcookies hheaders htext
    htype hstrip ?_ (fun hjson => absurd hjson (getMimeType_ne_json url))
  · rw [hbody, hannounced]
    simp [WriteSide.unsent, WriteSide.unsentFile, hsent, hbytes]
  · intro _
    simp [WriteSide.unsentFile, hbytes]

/-! ## One `process` call -/

/-- Nothing is left to be sent, and no file is open. -/
structure NothingUnsent (c : HttpConn) : Prop where
  fileFd : c.fileFd = none
  writeBuf : c.writeBuf = []
  fileBytesSent : c.fileBytesSent = 0

theorem NothingUnsent.unsent (h : c.NothingUnsent) : c.unsent contents = [] := by
  simp [WriteSide.unsent, WriteSide.unsentFile, h.fileFd, h.writeBuf]

variable (contents) in
/-- A response that has been copied is read. -/
theorem isReadAs_copied {s : Send} (hfile : c.fileFd = none) (hsent : c.headerSent = false)
    (hperform : s.perform c.httpBase.keepAlive r = .ok c.httpResponse) (htext : NoLineEnd s.statusText)
    (hsends : SendsText c.httpBase (Router.route env c.httpBase.method c.httpBase.url = some .apiEcho) s)
    (hr : r.Plain) (hlength : c.httpResponse.responseData.length < 4096) :
    (∃ answer, (copyResponseData c).2.IsReadAs contents answer ∧ (copyResponseData c).2.SpeaksJson env answer) ∧
      (copyResponseData c).2.fileFd = none := by
  have hcopied : (copyResponseData c).2 = { c with writeBuf := c.httpResponse.responseData } := by
    unfold copyResponseData
    rw [if_neg (by omega)]
  rw [hcopied]
  refine ⟨isReadAs_perform hperform htext hsends hr hlength ?_ hfile, hfile⟩
  simp [WriteSide.unsent, WriteSide.unsentFile, hsent, hfile]

/-- A copied response is what a sending call has written, or a file is sent: it is read. -/
theorem finish_isReadAs (h : finish env w c = (true, w', c')) (hholds : c'.FileHolds contents)
    (hfile : c.fileFd = none) (hoffset : c.fileOffset = 0) (hsent : c.headerSent = false)
    (hbytes : c.fileBytesSent = 0) (hplain : c.httpResponse.Plain)
    (hwritten : c.httpResponse.isBuilt = true → c.httpResponse.responseData.length < 4096 →
      ∃ s : Send, ∃ r, r.Plain ∧ NoLineEnd s.statusText ∧
        SendsText c.httpBase (Router.route env c.httpBase.method c.httpBase.url = some .apiEcho) s ∧
        s.perform c.httpBase.keepAlive r = .ok c.httpResponse) :
    (∃ answer, c'.IsReadAs contents answer ∧ c'.SpeaksJson env answer) ∧ (c'.fileFd ≠ none → c'.fileBytesSent = 0) := by
  by_cases hbuilt : c.httpResponse.isBuilt = true
  · rw [finish_built _ _ hbuilt, Prod.mk.injEq, Prod.mk.injEq] at h
    obtain ⟨hcopied, -, rfl⟩ := h
    have hlength : c.httpResponse.responseData.length < 4096 := by
      by_contra hlarge
      unfold copyResponseData at hcopied
      rw [if_pos (by omega)] at hcopied
      cases hcopied
    obtain ⟨s, r, hr, htext, hsends, hperform⟩ := hwritten hbuilt hlength
    obtain ⟨hread, hnone⟩ := isReadAs_copied contents hfile hsent hperform htext hsends hr hlength
    exact ⟨hread, fun hne => absurd hnone hne⟩
  · rw [finish_file _ _ (by simpa using hbuilt), Prod.mk.injEq, Prod.mk.injEq] at h
    obtain ⟨hopen, -, hc⟩ := h
    rw [if_pos hopen] at hc
    subst hc
    obtain ⟨hread, hzero⟩ := isReadAs_generateResponse hplain hoffset hsent hbytes hopen hholds
    exact ⟨hread, fun _ => hzero⟩

/-- Where nothing is copied and no file is opened, nothing is to be sent. -/
theorem finish_nothingUnsent (h : finish env w c = (false, w', c')) (hoffset : c.fileOffset = 0)
    (hplain : c.httpResponse.Plain) (hnone : c.NothingUnsent) : c'.NothingUnsent := by
  by_cases hbuilt : c.httpResponse.isBuilt = true
  · rw [finish_built _ _ hbuilt, Prod.mk.injEq, Prod.mk.injEq] at h
    obtain ⟨hcopied, -, rfl⟩ := h
    unfold copyResponseData at hcopied ⊢
    split_ifs at hcopied ⊢
    exact hnone
  · rw [finish_file _ _ (by simpa using hbuilt), Prod.mk.injEq, Prod.mk.injEq] at h
    obtain ⟨hfails, -, hc⟩ := h
    rw [if_neg (by rw [hfails]; decide)] at hc
    have hclosed : (generateResponse env w c).2.2.fileFd = none := by
      by_contra hopen
      have hfits := generateResponse_fits env w hplain hoffset hopen
      rw [hfails] at hfits
      cases hfits
    have hwrites : (generateResponse env w c).2.2.NothingUnsent := by
      refine ⟨hclosed, ?_, ?_⟩
      · unfold generateResponse copyResponseData at hfails hclosed ⊢
        grind
      · unfold generateResponse copyResponseData
        have := hnone.fileBytesSent
        grind
    rw [← hc]
    unfold HttpConn.closeConn
    split_ifs
    · exact hwrites
    · exact ⟨hwrites.fileFd, hwrites.writeBuf, hwrites.fileBytesSent⟩

/-- **A `process` call that returns true** has built a response that is read. -/
theorem process_isReadAs (h : c.Awaiting) (hbytes : c.fileBytesSent = 0)
    (hp : process env w c = .ok (true, w', c')) (hholds : c'.FileHolds contents) :
    (∃ answer, c'.IsReadAs contents answer ∧ c'.SpeaksJson env answer) ∧ (c'.fileFd ≠ none → c'.fileBytesSent = 0) := by
  rcases process_cases hp with ⟨-, -, -, r, hsend, rfl⟩ | ⟨-, hb, -⟩ | ⟨side, w2, hparse, -, hreq, -⟩
  · -- too many requests
    have hlength := sendRESTfulJson_length h.plain (by decide) (by decide) hsend
    have hnumbers : ∀ n ∈ (buildRESTfulJson 429 (str "Too Many Requests") .null).toValue.numbers,
        JsonReader.isNumber n = true := numbers_buildRESTfulJson (isNumber_integers [] rfl)
    obtain ⟨hread, hfile⟩ := @isReadAs_copied env contents { c with httpResponse := r } c.httpResponse
      (.restful 429 (str "Too Many Requests") .null) h.fileFd h.headerSent hsend (by decide : NoLineEnd (str "OK"))
      (fun _ _ hbody => .inl (Json.isText_dump hnumbers hbody)) h.plain hlength
    exact ⟨hread, fun hne => absurd hfile hne⟩
  · cases hb
  obtain ⟨w3, r, hrespond, hfinish⟩ := handleRequest_finish hreq
  refine finish_isReadAs hfinish hholds h.fileFd h.fileOffset h.headerSent hbytes
    ((keeps_respond hrespond).plain h.plain) ?_
  intro hbuilt hlength
  dsimp only at hbuilt hlength
  rcases sendsOnce_respond hrespond with hsame | ⟨s, htext, hsends, hperform⟩
  · -- only what did not fit can have been built before
    dsimp only at hsame
    unfold HttpResponse.isBuilt at hbuilt
    rw [hsame] at hlength hbuilt
    by_cases hdone : c.parseState = .done
    · have hunsent := h.unsent hdone
      omega
    · rw [h.unbuilt hdone] at hbuilt
      cases hbuilt
  · exact ⟨s, c.httpResponse, h.plain, htext, hsends, hperform⟩

/-- A `process` call that returns false leaves nothing to be sent. -/
theorem process_nothingUnsent (h : c.Awaiting) (hnone : c.NothingUnsent)
    (hp : process env w c = .ok (false, w', c')) : c'.NothingUnsent := by
  rcases process_cases hp with ⟨-, hb, -⟩ | ⟨-, -, -, side, -, rfl⟩ | ⟨side, w2, hparse, -, hreq, -⟩
  · cases hb
  · exact ⟨hnone.fileFd, hnone.writeBuf, hnone.fileBytesSent⟩
  obtain ⟨w3, r, hrespond, hfinish⟩ := handleRequest_finish hreq
  exact finish_nothingUnsent hfinish h.fileOffset ((keeps_respond hrespond).plain h.plain)
    ⟨hnone.fileFd, hnone.writeBuf, hnone.fileBytesSent⟩

end HttpConn

/-! ## The wire -/

namespace Wire

variable {env : Environment} {contents : Str → Str} {h : Wire} {w w' : World} {c c' : HttpConn}

/-- What has been taken of a connection, followed by what is left, is the responses built, one after the
    other, each of which is read; what is left belongs to the last one. -/
structure Carries (env : Environment) (contents : Str → Str) (h : Wire) (c : HttpConn) : Prop where
  fileBytesSent : c.fileFd ≠ none → c.fileBytesSent = 0
  holds : c.FileHolds contents
  taken : h.taken ++ c.unsent contents = (h.built.map fun c => c.unsent contents).flatten
  suffix : ∀ last ∈ h.built.getLast?, c.unsent contents <:+ last.unsent contents
  reads : ∀ c ∈ h.built, ∃ answer, c.IsReadAs contents answer ∧ c.SpeaksJson env answer

theorem Carries.of_eq (hc : h.Carries env contents c) (hside : c'.toWriteSide = c.toWriteSide) :
    h.Carries env contents c' := by
  refine ⟨?_, ?_, ?_, ?_, hc.reads⟩
  · rw [hside]
    exact hc.fileBytesSent
  · rw [hside]
    exact hc.holds
  · rw [hside]
    exact hc.taken
  · rw [hside]
    exact hc.suffix

/-- A connection that has sent everything goes on with nothing to send. -/
theorem Carries.of_nothing (hc : h.Carries env contents c) (hall : c.unsent contents = []) (hc' : c'.NothingUnsent) :
    h.Carries env contents c' := by
  have hnone : c'.unsent contents = [] := hc'.unsent
  refine ⟨fun hne => absurd hc'.fileFd hne, ?_, ?_, ?_, hc.reads⟩
  · intro path hpath
    rw [hc'.fileFd] at hpath
    cases hpath
  · have htaken := hc.taken
    rw [hall] at htaken
    rw [hnone]
    exact htaken
  · intro last _
    rw [hnone]
    exact List.nil_suffix

theorem Carries.closeConn (hc : h.Carries env contents c) : h.Carries env contents c.closeConn := by
  refine hc.of_eq ?_
  unfold HttpConn.closeConn
  split_ifs <;> rfl

theorem Carries.read (hc : h.Carries env contents c) (mode : HttpConn.TrigMode) (results : List HttpConn.RecvResult) :
    h.Carries env contents (c.read mode results).2 := by
  obtain ⟨buf, hbuf⟩ := HttpConn.read_eq mode c results
  refine hc.of_eq ?_
  rw [hbuf]

/-- A response is built where nothing is left to send. -/
theorem Carries.built (hc : h.Carries env contents c) (hall : c.unsent contents = [])
    (hbytes : c'.fileFd ≠ none → c'.fileBytesSent = 0) (hholds : c'.FileHolds contents)
    (hreads : ∃ answer, c'.IsReadAs contents answer ∧ c'.SpeaksJson env answer) :
    ({ h with built := h.built ++ [c'] } : Wire).Carries env contents c' := by
  refine ⟨hbytes, hholds, ?_, ?_, ?_⟩
  · have htaken := hc.taken
    rw [hall, List.append_nil] at htaken
    simp [htaken]
  · intro last hlast
    rw [List.getLast?_concat] at hlast
    cases hlast
    exact List.suffix_rfl
  · intro c'' hmem
    rcases List.mem_append.mp hmem with hmem | hmem
    · exact hc.reads c'' hmem
    · rw [List.mem_singleton] at hmem
      rw [hmem]
      exact hreads

/-- The socket takes what is left in order. -/
theorem Carries.write (hc : h.Carries env contents c) {results : List SocketResult}
    (hwhole : c.TakesWhole (c.socketResults results)) :
    ({ h with taken := h.taken ++ c.bytesTaken contents results } : Wire).Carries env contents
      (c.write results).2 := by
  have hside : (c.write results).2.toWriteSide = (c.toWriteSide.write (c.socketResults results)).2.2 := rfl
  have hunsent := WriteSide.write_unsent hc.fileBytesSent hc.holds hwhole
  refine ⟨?_, ?_, ?_, ?_, hc.reads⟩
  · rw [hside]
    rcases WriteSide.write_file c.toWriteSide (c.socketResults results) with hnone | ⟨b, hsame⟩
    · exact fun hne => absurd hnone hne
    · rw [hsame]
      exact hc.fileBytesSent
  · rw [hside]
    rcases WriteSide.write_file c.toWriteSide (c.socketResults results) with hnone | ⟨b, hsame⟩
    · intro path hpath
      rw [hnone] at hpath
      cases hpath
    · rw [hsame]
      exact hc.holds
  · rw [hside, List.append_assoc]
    exact (congrArg (h.taken ++ ·) hunsent).trans hc.taken
  · intro last hlast
    rw [hside]
    exact List.IsSuffix.trans ⟨_, hunsent⟩ (hc.suffix last hlast)

/-- A call of `process` that returns false records nothing. -/
theorem record_process_false {s : ServedConn} (hp : HttpConn.process env w s.conn = .ok (false, w', c)) :
    h.record env contents s (.work (.process w)) = h := by
  simp only [record, HttpConn.builtBy, hp, Option.toList_none, List.append_nil]

theorem record_process_true {s : ServedConn} (hp : HttpConn.process env w s.conn = .ok (true, w', c)) :
    h.record env contents s (.work (.process w)) = { h with built := h.built ++ [c] } := by
  simp only [record, HttpConn.builtBy, hp, Option.toList_some]

end Wire

namespace ServedConn

variable {env : Environment} {mode : HttpConn.TrigMode} {contents : Str → Str} {s s' : ServedConn} {h : Wire}
  {a : Action}

/-- What holds of a connection and its wire. -/
structure Wired (env : Environment) (contents : Str → Str) (p : ServedConn × Wire) : Prop where
  oneShot : p.1.OneShot
  awaiting : p.1.awaits = true → p.1.conn.Awaiting
  nothing : p.1.awaits = true → p.1.conn.NothingUnsent
  reset : p.1.task = some .init → p.1.conn.unsent contents = []
  carries : p.2.Carries env contents p.1.conn

theorem wired_start (fd : Int) (ip : Str) : Wired env contents (start fd ip, Wire.empty) where
  oneShot := fun h => by cases h
  awaiting := fun _ => HttpConn.awaiting_fresh fd ip
  nothing := fun _ => ⟨rfl, rfl, rfl⟩
  reset := fun h => by cases h
  carries := by
    refine ⟨fun hne => absurd rfl hne, ?_, rfl, ?_, ?_⟩
    · intro path hpath
      cases hpath
    · intro last hlast
      cases hlast
    · intro c hc
      cases hc

/-- While a request is to come nothing is left to send. -/
theorem nothing_step (hs : s.OneShot) (hawaiting : s.awaits = true → s.conn.Awaiting)
    (hnothing : s.awaits = true → s.conn.NothingUnsent) (hstep : step env mode s a = some s')
    (hawaits : s'.awaits = true) : s'.conn.NothingUnsent := by
  have hfrom := awaited_of_step hs hstep hawaits
  generalize s'.conn = c at hfrom
  cases hfrom with
  | reset => exact ⟨rfl, rfl, rfl⟩
  | kept _ _ hbefore => exact hnothing hbefore
  | read results hbefore =>
    obtain ⟨buf, hbuf⟩ := HttpConn.read_eq mode s.conn results
    obtain ⟨hfile, hbuffer, hbytes⟩ := hnothing hbefore
    rw [hbuf]
    exact ⟨hfile, hbuffer, hbytes⟩
  | closed _ _ hbefore =>
    obtain ⟨hfile, hbuffer, hbytes⟩ := hnothing hbefore
    unfold HttpConn.closeConn
    split_ifs
    · exact ⟨hfile, hbuffer, hbytes⟩
    · exact ⟨hfile, hbuffer, hbytes⟩
  | process w w' _ hprocess _ hbefore =>
    exact HttpConn.process_nothingUnsent (hawaiting hbefore) (hnothing hbefore) hprocess

theorem carries_closeConnection (hc : h.Carries env contents s.conn) : h.Carries env contents s.closeConnection.conn := by
  unfold closeConnection
  split_ifs
  · exact hc.closeConn
  · exact hc

/-- The wire keeps up with the connection. -/
theorem carries_step (hs : Wired env contents (s, h)) (hwhole : DeliversWhole env contents s a)
    (hstep : step env mode s a = some s') : (h.record env contents s a).Carries env contents s'.conn := by
  have hc : h.Carries env contents s.conn := hs.carries
  cases steps_of_step hstep with
  | event => exact hc
  | read results => exact hc.read mode results
  | process w w' success c htask hprocess =>
    have hawaits : s.awaits = true := by simp [awaits, htask]
    have hawaiting : s.conn.Awaiting := hs.awaiting hawaits
    have hnothing : s.conn.NothingUnsent := hs.nothing hawaits
    cases success with
    | false =>
      rw [Wire.record_process_false hprocess]
      exact hc.of_nothing hnothing.unsent (HttpConn.process_nothingUnsent hawaiting hnothing hprocess)
    | true =>
      have hholds : c.FileHolds contents := hwhole c (by simp [HttpConn.builtBy, hprocess])
      obtain ⟨hreads, hbytes⟩ :=
        HttpConn.process_isReadAs hawaiting hnothing.fileBytesSent hprocess hholds
      rw [Wire.record_process_true hprocess]
      exact hc.built hnothing.unsent hbytes hholds hreads
  | writeCallback =>
    show h.Carries env contents _
    split_ifs <;> exact hc
  | write results => exact hc.write hwhole
  | writeAgain results => exact hc.write hwhole
  | init htask => exact hc.of_nothing (hs.reset htask) ⟨rfl, rfl, rfl⟩
  | modFd => exact hc
  | closeConnection => exact carries_closeConnection hc
  | expire => exact carries_closeConnection hc
  | shutdown => exact hc.closeConn
  | destroy => exact hc.closeConn

/-- The connection is reset only after a response has been sent. -/
theorem unsent_reset_step (hreset : s.task = some .init → s.conn.unsent contents = [])
    (hstep : step env mode s a = some s') (htask' : s'.task = some .init) : s'.conn.unsent contents = [] := by
  have hclose : s.conn.closeConn.toWriteSide = s.conn.toWriteSide := by
    unfold HttpConn.closeConn
    split_ifs <;> rfl
  cases steps_of_step hstep with
  | event interest => cases interest <;> simp [Interest.stage] at htask'
  | read results => grind
  | process => grind
  | writeCallback => cases htask'
  | write results =>
    by_cases hok : (s.conn.write results).1 = .ok
    · exact WriteSide.write_ok hok
    · simp [hok] at htask'
  | writeAgain results => grind
  | init => cases htask'
  | modFd => cases htask'
  | closeConnection => cases htask'
  | expire =>
    have htask := (fileFd_closeConnection s).2.1
    have hall := hreset (htask.symm.trans htask')
    unfold closeConnection
    split_ifs
    · exact (congrArg (WriteSide.unsent contents) hclose).trans hall
    · exact hall
  | shutdown => exact (congrArg (WriteSide.unsent contents) hclose).trans (hreset htask')
  | destroy _ htask => cases htask.symm.trans htask'

theorem wired_step (hs : Wired env contents (s, h)) (hwhole : DeliversWhole env contents s a)
    (hstep : step env mode s a = some s') : Wired env contents (s', h.record env contents s a) where
  oneShot := oneShot_step hs.oneShot hstep
  awaiting := awaiting_step hs.oneShot hs.awaiting hstep
  nothing := nothing_step hs.oneShot hs.awaiting hs.nothing hstep
  reset := unsent_reset_step hs.reset hstep
  carries := carries_step hs hwhole hstep

/-- The answer as which a response is read. -/
def Answers (env : Environment) (contents : Str → Str) (c : HttpConn) (answer : Response) : Prop :=
  c.IsReadAs contents answer ∧ c.SpeaksJson env answer

/-- Answers for all responses. -/
theorem exists_answers {built : List HttpConn} (h : ∀ c ∈ built, ∃ answer, Answers env contents c answer) :
    ∃ answers, List.Forall₂ (Answers env contents) built answers := by
  induction built with
  | nil => exact ⟨[], .nil⟩
  | cons c built ih =>
    obtain ⟨answer, hanswer⟩ := h c (by simp)
    obtain ⟨answers, hanswers⟩ := ih fun c' hc' => h c' (List.mem_cons_of_mem _ hc')
    exact ⟨answer :: answers, .cons hanswer hanswers⟩

/-- Responses that have been taken whole are read before what follows them. -/
theorem readAll_built {built : List HttpConn} {answers : List Response}
    (h : List.Forall₂ (Answers env contents) built answers) (more : Str) :
    readAll always ((built.map fun c => c.unsent contents).flatten ++ more) =
      (answers ++ (readAll always more).1, (readAll always more).2) := by
  refine readAll_flatten ?_ more
  rw [List.forall₂_map_left_iff]
  exact h.imp fun _ _ hread => hread.1.read

theorem readAll_nil : readAll always [] = ([], []) := readAll_of_none rfl

/-- **The wire is read in order** as far as it has been taken. -/
theorem wired_answers {p : ServedConn × Wire} (hp : Wired env contents p) :
    List.Forall₂ (Answers env contents) (p.2.built.take (readAll always p.2.taken).1.length)
        (readAll always p.2.taken).1 ∧
      p.2.built.length ≤ (readAll always p.2.taken).1.length + 1 ∧
      (p.1.awaits = true → (readAll always p.2.taken).1.length = p.2.built.length ∧
        (readAll always p.2.taken).2 = []) := by
  have htaken := hp.carries.taken
  by_cases hall : p.1.conn.unsent contents = []
  · -- everything has been sent
    obtain ⟨answers, hanswers⟩ := exists_answers hp.carries.reads
    have hread := readAll_built hanswers []
    rw [hall, List.append_nil] at htaken
    rw [List.append_nil, ← htaken, readAll_nil, List.append_nil] at hread
    have hlength := hanswers.length_eq
    refine ⟨?_, ?_, fun _ => ?_⟩
    · rw [hread, ← hlength, List.take_length]
      exact hanswers
    · rw [hread, hlength]
      exact Nat.le_succ _
    · rw [hread, hlength]
      exact ⟨rfl, rfl⟩
  · -- the last response is on its way
    have hbuilt : p.2.built ≠ [] := by
      intro hnil
      rw [hnil] at htaken
      exact hall (List.append_eq_nil_iff.mp htaken).2
    obtain ⟨earlier, last, heq⟩ := (List.eq_nil_or_concat p.2.built).resolve_left hbuilt
    rw [List.concat_eq_append] at heq
    obtain ⟨part, hpart⟩ := hp.carries.suffix last (by rw [heq, List.getLast?_concat]; rfl)
    have hreads := hp.carries.reads
    rw [heq] at htaken hreads
    rw [List.map_append, List.flatten_append, List.map_singleton, List.flatten_singleton, ← hpart, ← List.append_assoc,
      List.append_left_inj] at htaken
    obtain ⟨answer, hanswer⟩ := hreads last (by simp)
    obtain ⟨answers, hanswers⟩ := exists_answers fun c hc => hreads c (List.mem_append_left _ hc)
    have hcut : HttpReader.read always part = none := by
      refine read_partial (r := answer) ?_ hall
      rw [hpart]
      exact hanswer.1.read
    have hread := readAll_built hanswers part
    rw [← htaken, readAll_of_none hcut, List.append_nil] at hread
    have hlength := hanswers.length_eq
    refine ⟨?_, ?_, fun hawaits => ?_⟩
    · rw [hread, heq, ← hlength, List.take_left]
      exact hanswers
    · rw [hread, heq, List.length_append, hlength]
      rfl
    · exact absurd (hp.nothing hawaits).unsent hall

theorem readInOrder_of_wired {p : ServedConn × Wire} (hp : Wired env contents p) : ReadInOrder contents p := by
  obtain ⟨hanswers, hlast, hcomplete⟩ := wired_answers hp
  exact ⟨hanswers.imp fun _ _ h => h.1, hlast, hcomplete⟩

/-- What holds of a connection and its wire holds after every run. -/
theorem wired_run {fd : Int} {ip : Str} {actions : List Action} {p : ServedConn × Wire}
    (hwhole : Transition.Meets (step env mode) (DeliversWhole env contents) (start fd ip) actions)
    (hr : Transition.run (Transition.withHistory (step env mode) (Wire.record env contents))
      (start fd ip, Wire.empty) actions = some p) : Wired env contents p := by
  refine Transition.run_invariant_withHistory ?_ (wired_start fd ip) hwhole hr
  intro s w a s' hs hw hstep
  exact wired_step hs hw hstep

/-- **A client reads the responses in order.** Over every run of a connection, with any requests, any answers
    of the socket and any closing, in which the socket takes the header of a response in one call and the file
    with one `sendfile`, and every file holds the window that is announced: what the socket has taken is read
    as the responses that have been built, in order, each complete and with nothing between them; of the last
    one nothing is read until it has been sent to its end. -/
theorem run_read_in_order {fd : Int} {ip : Str} {actions : List Action} {p : ServedConn × Wire}
    (hwhole : Transition.Meets (step env mode) (DeliversWhole env contents) (start fd ip) actions)
    (hr : Transition.run (Transition.withHistory (step env mode) (Wire.record env contents))
      (start fd ip, Wire.empty) actions = some p) : ReadInOrder contents p :=
  readInOrder_of_wired (wired_run hwhole hr)

/-- A page, and then a call of a handler, on one connection. -/
def pageThenHello : List Action :=
  [.event, .work (.read [.received 71 (str "ET /index.html HTTP/1.1\r\nconnection: keep-alive\r\n\r\n")]),
    .work (.process HttpConn.loginWorld), .work .none,
    .event, .work (.write [.accepts 4096, .again]), .work (.write [.again]), .work .none,
    .event, .work (.write [.accepts 5]), .work .none, .work .none,
    .event, .work (.read [.received 71 (str "ET /api/hello HTTP/1.1\r\n\r\n")]),
    .work (.process HttpConn.loginWorld), .work .none,
    .event, .work (.write [.accepts 4096])]

theorem run_read_in_order_pageThenHello :
    ∃ p, Transition.run (Transition.withHistory (step HttpConn.loginEnvironment .LT)
          (Wire.record HttpConn.loginEnvironment fun _ => str "hello"))
        (start 5 (str "10.0.0.1"), Wire.empty) pageThenHello = some p ∧ p.2.built.length = 2 ∧
      ReadInOrder (fun _ => str "hello") p := by
  obtain ⟨p, hp, hend⟩ := Option.map_eq_some_iff.mp
    (show (Transition.run (Transition.withHistory (step HttpConn.loginEnvironment .LT)
          (Wire.record HttpConn.loginEnvironment fun _ => str "hello"))
        (start 5 (str "10.0.0.1"), Wire.empty) pageThenHello).map (fun p => p.2.built.length) = some 2
      by decide +kernel)
  exact ⟨p, hp, hend, run_read_in_order (by decide +kernel) hp⟩

/-- **What says it is JSON is JSON.** In every such run, each answer that a client reads with the type
    `application/json` is UTF-8, and a JSON reader reads it as the value that was dumped; only `/api/echo` sends
    back the body of the request, whatever it is. -/
theorem run_speaks_json {fd : Int} {ip : Str} {actions : List Action} {p : ServedConn × Wire}
    (hwhole : Transition.Meets (step env mode) (DeliversWhole env contents) (start fd ip) actions)
    (hr : Transition.run (Transition.withHistory (step env mode) (Wire.record env contents))
      (start fd ip, Wire.empty) actions = some p) :
    List.Forall₂ (HttpConn.SpeaksJson env) (p.2.built.take (readAll always p.2.taken).1.length)
      (readAll always p.2.taken).1 :=
  (wired_answers (wired_run hwhole hr)).1.imp fun _ _ h => h.2

theorem run_speaks_json_pageThenHello :
    ∃ p, Transition.run (Transition.withHistory (step HttpConn.loginEnvironment .LT)
          (Wire.record HttpConn.loginEnvironment fun _ => str "hello"))
        (start 5 (str "10.0.0.1"), Wire.empty) pageThenHello = some p ∧ p.2.built.length = 2 ∧
      List.Forall₂ (HttpConn.SpeaksJson HttpConn.loginEnvironment)
        (p.2.built.take (readAll always p.2.taken).1.length) (readAll always p.2.taken).1 := by
  obtain ⟨p, hp, hend⟩ := Option.map_eq_some_iff.mp
    (show (Transition.run (Transition.withHistory (step HttpConn.loginEnvironment .LT)
          (Wire.record HttpConn.loginEnvironment fun _ => str "hello"))
        (start 5 (str "10.0.0.1"), Wire.empty) pageThenHello).map (fun p => p.2.built.length) = some 2
      by decide +kernel)
  exact ⟨p, hp, hend, @run_speaks_json _ .LT (fun _ => str "hello") _ _ _ _ (by decide +kernel) hp⟩

end ServedConn

end ModularNetServer
