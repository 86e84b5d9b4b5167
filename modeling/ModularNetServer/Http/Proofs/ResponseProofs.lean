import ModularNetServer.Json.Proofs.DumpProofs
import ModularNetServer.Http.Proofs.IsolationProofs
import ModularNetServer.Http.Proofs.BlacklistProofs

/-!
# Responses

No handler adds a header or a cookie. Without these, a response that is not built by a handler fits the
write buffer.
-/

namespace ModularNetServer

open Cxx

namespace HttpResponse

/-- A response with neither headers nor cookies of its own. -/
structure Plain (r : HttpResponse) : Prop where
  headers : r.responseHeaders = []
  cookies : r.responseCookies = []

/-- The header of a response without cookies. -/
theorem length_buildResponseHeader {r : HttpResponse} (h : r.responseCookies = []) (keepAlive : Bool)
    (code : Int) (text contentType : Str) (length : Int) :
    (r.buildResponseHeader keepAlive code text contentType length).responseData.length ≤
      120 + (Cxx.toString code).length + text.length + contentType.length +
        (Cxx.toString length).length + (r.responseHeaders.map headerLine).flatten.length := by
  simp only [HttpResponse.buildResponseHeader, h, List.map_nil, List.flatten_nil, List.length_append]
  have hlengths : (str "HTTP/1.1 ").length = 9 ∧ (str " ").length = 1 ∧ (str "\r\n").length = 2 ∧
      (str "Content-Type: ").length = 14 ∧ (str "Content-Length: ").length = 16 := by decide
  have hconnection : (if keepAlive then str "Connection: keep-alive\r\nKeep-Alive: timeout=5\r\n"
      else str "Connection: close\r\n").length ≤ 47 := by
    cases keepAlive <;> decide
  simp only [hlengths, List.length_nil]
  omega

theorem Plain.buildResponseHeader {r : HttpResponse} (h : r.Plain) (keepAlive : Bool) (code : Int)
    (text contentType : Str) (length : Int) :
    (r.buildResponseHeader keepAlive code text contentType length).responseData.length ≤
      120 + (Cxx.toString code).length + text.length + contentType.length + (Cxx.toString length).length := by
  have hlength := length_buildResponseHeader h.cookies keepAlive code text contentType length
  rwa [h.headers] at hlength

/-- A plain JSON answer. -/
theorem Plain.sendJsonText {r : HttpResponse} (h : r.Plain) (keepAlive : Bool) (text : Str) :
    (r.sendJsonText keepAlive 200 text).responseData.length ≤ 160 + text.length := by
  have hheader := h.buildResponseHeader keepAlive 200 (str "OK") (str "application/json")
    (toInt32 text.length)
  have hlength := toString_length_le (by decide) (toInt32_natAbs_lt text.length)
  have hlengths : (Cxx.toString 200).length = 3 ∧ (str "OK").length = 2 ∧
      (str "application/json").length = 16 := by decide
  simp only [HttpResponse.sendJsonText, List.length_append]
  omega

/-- A page is its header and its text. -/
theorem sendText_data (r : HttpResponse) (keepAlive : Bool) (code : Int) (title message : Str) :
    ∃ html : Str, (r.sendText keepAlive code title message).responseData =
        (r.buildResponseHeader keepAlive code title (str "text/html") (toInt32 html.length)).responseData ++ html ∧
      html.length = 71 + (Cxx.toString code).length + 2 * title.length + message.length := by
  have hlengths : (str "<html><head><title>").length = 19 ∧ (str "</title></head>").length = 15 ∧
      (str "<body><h1>").length = 10 ∧ (str " ").length = 1 ∧ (str "</h1>").length = 5 ∧
      (str "<p>").length = 3 ∧ (str "</p></body></html>").length = 18 := by decide
  refine ⟨_, rfl, ?_⟩
  simp only [List.length_append, hlengths]
  omega

/-- A plain page. -/
theorem Plain.sendText {r : HttpResponse} (h : r.Plain) (keepAlive : Bool) (code : Int) (title message : Str) :
    (r.sendText keepAlive code title message).responseData.length ≤
      220 + 2 * (Cxx.toString code).length + 3 * title.length + message.length := by
  obtain ⟨html, hdata, hhtml⟩ := sendText_data r keepAlive code title message
  have hheader := h.buildResponseHeader keepAlive code title (str "text/html") (toInt32 html.length)
  have hlength := toString_length_le (by decide) (toInt32_natAbs_lt html.length)
  have htype : (str "text/html").length = 9 := by decide
  rw [hdata, List.length_append]
  omega

/-- Headers and cookies are as before, and the data as before or built. -/
structure Keeps (r r' : HttpResponse) : Prop where
  headers : r'.responseHeaders = r.responseHeaders
  cookies : r'.responseCookies = r.responseCookies
  data : r'.responseData = r.responseData ∨ r'.responseData ≠ []

theorem Keeps.plain {r r' : HttpResponse} (h : Keeps r r') (hr : r.Plain) : r'.Plain :=
  ⟨h.headers.trans hr.headers, h.cookies.trans hr.cookies⟩

theorem keeps_refl (r : HttpResponse) : Keeps r r := ⟨rfl, rfl, .inl rfl⟩

theorem keeps_sendJsonText (r : HttpResponse) (keepAlive : Bool) (code : Int) (text : Str) :
    Keeps r (r.sendJsonText keepAlive code text) := by
  have hne : (r.sendJsonText keepAlive code text).responseData ≠ [] := by
    intro h
    exact HttpConn.buildResponseHeader_data_ne_nil _ _ _ _ _ _ (List.append_eq_nil_iff.mp h).1
  refine ⟨?_, ?_, .inr hne⟩
  all_goals simp only [HttpResponse.sendJsonText, HttpResponse.buildResponseHeader]

theorem keeps_sendText (r : HttpResponse) (keepAlive : Bool) (code : Int) (title message : Str) :
    Keeps r (r.sendText keepAlive code title message) := by
  have hne : (r.sendText keepAlive code title message).responseData ≠ [] := by
    intro h
    exact HttpConn.buildResponseHeader_data_ne_nil _ _ _ _ _ _ (List.append_eq_nil_iff.mp h).1
  refine ⟨?_, ?_, .inr hne⟩
  all_goals simp only [HttpResponse.sendText, HttpResponse.buildResponseHeader]

theorem keeps_sendJson {r r' : HttpResponse} {keepAlive : Bool} {code : Int} {data : Json}
    (h : r.sendJson keepAlive code data = .ok r') : Keeps r r' := by
  unfold sendJson at h
  split at h
  · cases h
  · cases h
    exact keeps_sendJsonText r keepAlive code _

end HttpResponse

namespace HttpConn

open HttpResponse

variable {env : Environment} {base : HttpBase} {w w' : World} {r r' : HttpResponse}

theorem keeps_answer {w1 : World} {x : Except Escape HttpResponse} (h : answer w1 x = .ok (w', r'))
    (hx : ∀ r1, x = .ok r1 → Keeps r r1) : Keeps r r' := by
  unfold answer at h
  split at h
  · cases h
  · cases h
    exact hx _ rfl

theorem keeps_login (h : UserController.login env base w r = .ok (w', r')) : Keeps r r' := by
  unfold UserController.login at h
  generalize w.isLimit (str "login_ip") base.ip = limit at h
  obtain ⟨limited, w1⟩ := limit
  dsimp only at h
  split_ifs at h
  · exact keeps_answer h fun _ => keeps_sendJson
  · split at h
    · cases h
    · cases h
      exact keeps_refl r
    · exact keeps_answer h fun _ => keeps_sendJson

theorem keeps_txTest (h : TestTxController.handle base w r = .ok (w', r')) : Keeps r r' := by
  unfold TestTxController.handle at h
  rcases husername : TestTxController.stringMember base.requestJson (str "username") with e | username
  all_goals simp only [husername] at h
  · cases h
  rcases hage : TestTxController.stringMember base.requestJson (str "age") with e | age
  all_goals simp only [hage] at h
  · cases h
  rcases hstoi : stoi age with e | n
  all_goals simp only [hstoi] at h
  · cases h
  rcases hinsert : TextTxDao.insertUser w username n with e | ⟨_ | _, w1⟩
  all_goals simp only [hinsert] at h
  · cases h
  · exact keeps_answer h fun _ => keeps_sendJson
  · exact keeps_answer h fun _ => keeps_sendJson

theorem keeps_run {handler : Handler} (h : handler.run env base w r = .ok (w', r')) : Keeps r r' := by
  cases handler with
  | apiHello =>
    simp only [Handler.run, TestController.hello] at h
    exact keeps_answer h fun _ => keeps_sendJson
  | apiTime =>
    simp only [Handler.run, TestController.time] at h
    exact keeps_answer h fun _ => keeps_sendJson
  | apiEcho =>
    cases h
    exact keeps_sendJsonText r _ _ _
  | apiInfo =>
    simp only [Handler.run, ModularNetServer.apiInfo] at h
    exact keeps_answer h fun _ => keeps_sendJson
  | login => exact keeps_login h
  | registerUser =>
    cases h
    exact ⟨rfl, rfl, .inl rfl⟩
  | checkToken =>
    simp only [Handler.run, UserController.checkToken] at h
    split_ifs at h
    · exact keeps_answer h fun _ => keeps_sendJson
    · exact keeps_answer h fun _ => keeps_sendJson
  | txTest => exact keeps_txTest h

/-- What is done with a request leaves headers and cookies alone. -/
theorem keeps_respond {verdict : Verdict} (h : respond env verdict base w r = .ok (w', r')) :
    Keeps r r' := by
  cases verdict with
  | forbidden =>
    simp only [respond, HttpResponse.sendRESTfulJson] at h
    exact keeps_answer h fun _ => keeps_sendJson
  | unauthenticated =>
    simp only [respond, HttpResponse.sendRESTfulJson] at h
    exact keeps_answer h fun _ => keeps_sendJson
  | dispatch =>
    simp only [respond, Router.dispatch] at h
    split at h
    · exact keeps_run h
    · split_ifs at h
      · cases h
        exact ⟨rfl, rfl, .inl rfl⟩
      · cases h
        exact keeps_sendText r _ _ _ _

/-! ## The lengths of the answers -/

theorem sendJson_length (hr : r.Plain) {keepAlive : Bool} {data : Json} {k : Nat}
    (hk : ∀ text, data.dump = .ok text → text.length ≤ k) (h : r.sendJson keepAlive 200 data = .ok r') :
    r'.responseData.length ≤ 160 + k := by
  unfold HttpResponse.sendJson at h
  rcases htext : data.dump with e | text
  all_goals rw [htext] at h
  · cases h
  · cases h
    exact (hr.sendJsonText keepAlive text).trans (Nat.add_le_add_left (hk text htext) 160)

/-- An answer in the common form without data fits. -/
theorem sendRESTfulJson_length (hr : r.Plain) {keepAlive : Bool} {code : Int} (hcode : code.natAbs < 10 ^ 10)
    {message : Str} (hmessage : message.length ≤ 100)
    (h : r.sendRESTfulJson keepAlive code message .null = .ok r') : r'.responseData.length < 4096 := by
  have hnames : (str "code").length = 4 ∧ (str "data").length = 4 ∧ (str "message").length = 7 := by decide
  have hvalues : ∀ m ∈ [(str "code", Json.number (Cxx.toString code)),
      (str "data", if Json.null.isEmpty then Json.null else .null), (str "message", .string message)],
      ∀ value, Json.dump m.2 = .ok value → value.length ≤ 602 := by
    intro m hm value hvalue
    simp only [List.mem_cons, List.not_mem_nil, or_false] at hm
    rcases hm with rfl | rfl | rfl
    · have hlength := toString_length_le (by decide) hcode
      have hnumber := Json.dump_number_length hvalue
      omega
    · rw [ite_self, Json.dump] at hvalue
      cases hvalue
      decide
    · have hstring := Json.dump_string_length hvalue
      omega
  have hlength := sendJson_length hr (fun text htext => Json.dump_object_length hvalues htext) h
  simp only [List.map_cons, List.map_nil, List.sum_cons, List.sum_nil] at hlength
  omega

theorem answer_length {w1 : World} {x : Except Escape HttpResponse} (h : answer w1 x = .ok (w', r')) :
    x = .ok r' := by
  unfold answer at h
  split at h
  · cases h
  · cases h
    rfl

/-- Without a handler the answer fits the write buffer, unless a page is sent. -/
theorem respond_unhandled {verdict : Verdict} (hr : r.Plain)
    (h : respond env verdict base w r = .ok (w', r'))
    (hroute : verdict = .dispatch → Router.route env base.method base.url = none) :
    r'.responseData = r.responseData ∨ r'.responseData.length < 4096 := by
  cases verdict with
  | forbidden =>
    simp only [respond] at h
    exact .inr (sendRESTfulJson_length hr (by decide) (by decide) (answer_length h))
  | unauthenticated =>
    simp only [respond] at h
    exact .inr (sendRESTfulJson_length hr (by decide) (by decide) (answer_length h))
  | dispatch =>
    simp only [respond, Router.dispatch, hroute rfl] at h
    split_ifs at h
    · cases h
      exact .inl rfl
    · cases h
      have hlength := hr.sendText base.keepAlive 404 (str "Not Found")
        (str "The requested URL was not found on this server.")
      have hlengths : (Cxx.toString 404).length = 3 ∧ (str "Not Found").length = 9 ∧
          (str "The requested URL was not found on this server.").length = 47 := by decide
      exact .inr (by omega)

/-! ## The header of a file -/

theorem getMimeType_length (path : Str) : (getMimeType path).length ≤ 24 := by
  unfold getMimeType
  split_ifs <;> decide

/-- The window of a file, where a response begins at the start of the file or with a range. -/
theorem chooseWindow_bounds (range : ByteRange) {fileSize : Int} (h : fileSize.natAbs < 10 ^ 10) :
    (chooseWindow range 0 fileSize).offset.natAbs < 10 ^ 10 ∧
      (chooseWindow range 0 fileSize).contentLength.natAbs < 10 ^ 10 ∧
      (Cxx.toString (chooseWindow range 0 fileSize).statusCode).length = 3 ∧
      (chooseWindow range 0 fileSize).statusText.length ≤ 21 := by
  have hspan := toInt32_natAbs_lt (range.stop - range.start + 1)
  have hzero : (0 : Int).natAbs < 10 ^ 10 := by decide
  have hpartial : (Cxx.toString 206).length = 3 ∧ (str "Partial Content").length ≤ 21 := by decide
  have hrange : (Cxx.toString 416).length = 3 ∧ (str "Range Not Satisfiable").length ≤ 21 := by decide
  have hok : (Cxx.toString 200).length = 3 ∧ (str "OK").length ≤ 21 := by decide
  unfold chooseWindow
  split_ifs
  · exact ⟨by dsimp only; omega, hspan, hpartial⟩
  · exact ⟨by dsimp only; omega, by dsimp only; omega, hpartial⟩
  · exact ⟨by dsimp only; omega, by dsimp only; omega, hpartial⟩
  · exact ⟨hzero, hzero, hrange⟩
  · exact ⟨hzero, h, hok⟩

theorem windowHeaders_length (hr : r.Plain) {window : FileWindow} {fileSize : Int}
    (hoffset : window.offset.natAbs < 10 ^ 10) (hsize : fileSize.natAbs < 10 ^ 10) :
    ((windowHeaders window fileSize r).responseHeaders.map headerLine).flatten.length ≤ 100 ∧
      (windowHeaders window fileSize r).responseCookies = [] := by
  have h1 := toString_length_le (by decide) hoffset
  have h2 := toString_length_le (by decide) (toInt32_natAbs_lt (window.offset + window.responseSize - 1))
  have h3 := toString_length_le (by decide) hsize
  have hlengths : (str "Accept-Ranges").length = 13 ∧ (str "bytes").length = 5 ∧ (str ": ").length = 2 ∧
      (str "\r\n").length = 2 ∧ (str "Content-Range").length = 13 ∧ (str "bytes ").length = 6 ∧
      (str "-").length = 1 ∧ (str "/").length = 1 := by decide
  have hne : str "Accept-Ranges" ≠ str "Content-Range" := by decide
  unfold windowHeaders
  split_ifs
  · simp only [HttpResponse.setHeader, hr.headers, hr.cookies, HttpResponse.setEntry, if_neg hne, List.map_cons,
      List.map_nil, List.flatten_cons, List.flatten_nil, headerLine, List.length_append, List.length_nil]
    exact ⟨by omega, trivial⟩
  · simp only [HttpResponse.setHeader, hr.headers, hr.cookies, HttpResponse.setEntry, List.map_cons,
      List.map_nil, List.flatten_cons, List.flatten_nil, headerLine, List.length_append, List.length_nil]
    exact ⟨by omega, trivial⟩
  · rw [hr.headers]
    exact ⟨by decide, hr.cookies⟩

/-- The header of a file fits the write buffer. -/
theorem generateResponse_fits {c : HttpConn} (env : Environment) (w : World) (hr : c.httpResponse.Plain)
    (hoffset : c.fileOffset = 0) (hopen : (generateResponse env w c).2.2.fileFd ≠ none) :
    (generateResponse env w c).1 = true := by
  rw [fileFd_generateResponse] at hopen
  have hcan : w.files.canOpen (Scan.upTo 0 (resolveUrl env w.files c.responseUrl).2.1) = true := by
    by_contra hcan
    exact hopen (if_neg hcan)
  simp only [generateResponse, World.files_emit, hcan, Bool.not_true, Bool.false_eq_true, if_false]
  generalize resolveUrl env w.files c.responseUrl = file
  obtain ⟨url, path, size⟩ := file
  dsimp only
  have hsize := toInt32_natAbs_lt size
  obtain ⟨hwindow, hcontent, hstatus, htext⟩ := chooseWindow_bounds c.httpBase.range hsize
  rw [hoffset]
  generalize chooseWindow c.httpBase.range 0 (toInt32 size) = window at hwindow hcontent hstatus htext ⊢
  have hplain : (c.httpResponse.sendRedirect url).Plain := ⟨hr.headers, hr.cookies⟩
  obtain ⟨hheaders, hcookies⟩ := windowHeaders_length hplain hwindow hsize
  have hlength := length_buildResponseHeader hcookies c.httpBase.keepAlive window.statusCode
    window.statusText (getMimeType url) window.contentLength
  have hmime := getMimeType_length url
  have hcontent := toString_length_le (by decide) hcontent
  unfold copyResponseData
  rw [if_neg (by dsimp only; omega)]

end HttpConn

end ModularNetServer
