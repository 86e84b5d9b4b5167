import ModularNetServer.Http.HttpConn

/-!
# What a reset leaves behind

After `HttpConn::init` a connection differs from a new one in the response URL and the path of the
last file, and the path is never read. `respond` leaves the response URL as it is only after a
failed login, so only then can an earlier request be seen in a response.
-/

namespace ModularNetServer

open Cxx

namespace HttpConn

/-! ## Responses -/

/-- The response that `handleRequest` has built: its result, the response data, the write buffer,
    and the file with its window. -/
structure Response where
  built : Bool
  responseData : Str
  writeBuf : Str
  fileFd : Option Str
  fileOffset : Int
  fileResponseSize : Int
  deriving DecidableEq

/-- The response in the result of `handleRequest`. -/
def response (r : Except Escape (Bool × World × HttpConn)) : Except Escape Response :=
  match r with
  | .error e => .error e
  | .ok (built, _, c) =>
    .ok ⟨built, c.httpResponse.responseData, c.writeBuf, c.fileFd, c.fileOffset, c.fileResponseSize⟩

/-- A connection after `init` with a socket that has received and parsed a request. -/
def ready (c : HttpConn) (sockfd : Int) (side : ReadSide) : HttpConn :=
  { c.init sockfd with toReadSide := side }

/-- What a connection that has been reset does with the next request, received in the given chunks:
    nothing while the request is incomplete. -/
def answerNext (env : Environment) (w : World) (c : HttpConn) (chunks : List Str) :
    Except Escape (Option Response) :=
  match ReadSide.feed env.parseJson c.toReadSide chunks with
  | .error e => .error e
  | .ok (false, _) => .ok none
  | .ok (true, side) => (response (handleRequest env w { c with toReadSide := side })).map some

/-! ## When the response URL is left alone -/

/-- The login is neither refused by the limiter nor accepted. -/
def LoginFails (w : World) (base : HttpBase) : Prop :=
  (w.isLimit (str "login_ip") base.ip).1 = false ∧
    ∃ w', UserDao.checkUser (w.isLimit (str "login_ip") base.ip).2
      ((base.formData (str "username")).getD []) ((base.formData (str "password")).getD []) =
        .ok (false, w')

/-- The request gets past the interceptors to the login handler, which does not accept it. -/
def FailedLogin (env : Environment) (w : World) (base : HttpBase) : Prop :=
  (gate env w base).1 = .dispatch ∧
    Router.route env (gate env w base).2.2.method (gate env w base).2.2.url = some .login ∧
    LoginFails ((gate env w base).2.1.emit
      (.dispatch (gate env w base).2.2.method (gate env w base).2.2.url)) (gate env w base).2.2

/-- Two response URLs stand for the same answer: neither can be opened, or both are the same file
    with the same MIME type. -/
def SameFile (env : Environment) (files : FileSystem) (url url' : Str) : Prop :=
  let file := resolveUrl env files url
  let file' := resolveUrl env files url'
  let path := Scan.upTo 0 file.2.1
  let path' := Scan.upTo 0 file'.2.1
  files.canOpen path = files.canOpen path' ∧
    (files.canOpen path = true → path = path' ∧ getMimeType file.1 = getMimeType file'.1)

/-! ## What handlers do to the response -/

theorem buildResponseHeader_data_ne_nil (r : HttpResponse) (keepAlive : Bool) (code : Int)
    (text contentType : Str) (length : Int) :
    (r.buildResponseHeader keepAlive code text contentType length).responseData ≠ [] := by
  intro h
  have hhead := congrArg (List.take 1) h
  simp only [HttpResponse.buildResponseHeader, List.append_assoc] at hhead
  rw [List.take_append_of_le_length (by decide)] at hhead
  exact absurd hhead (by decide)

/-- What a handler does to a response that `init` has reset, whatever its URL: it throws, builds the
    response, or chooses a URL. -/
inductive Reply (f : Str → Handled) : Prop
  | throws (e : Escape) (h : ∀ url, f url = .error e)
  | builds (w : World) (data : Str) (hne : data ≠ []) (h : ∀ url, f url = .ok (w, ⟨url, [], [], data⟩))
  | redirects (w : World) (url' : Str) (h : ∀ url, f url = .ok (w, ⟨url', [], [], []⟩))

theorem reply_json (w : World) (keepAlive : Bool) (code : Int) (data : Json) :
    Reply fun url => answer w (HttpResponse.sendJson ⟨url, [], [], []⟩ keepAlive code data) := by
  unfold HttpResponse.sendJson answer
  cases data.dump with
  | error e => exact .throws e fun _ => rfl
  | ok text =>
    refine .builds w (HttpResponse.sendJsonText ⟨[], [], [], []⟩ keepAlive code text).responseData ?_
      fun _ => rfl
    intro h
    exact buildResponseHeader_data_ne_nil _ _ _ _ _ _ (List.append_eq_nil_iff.mp h).1

theorem reply_text (w : World) (keepAlive : Bool) (code : Int) (text : Str) :
    Reply fun url => .ok (w, HttpResponse.sendJsonText ⟨url, [], [], []⟩ keepAlive code text) := by
  refine .builds w (HttpResponse.sendJsonText ⟨[], [], [], []⟩ keepAlive code text).responseData ?_
    fun _ => rfl
  intro h
  exact buildResponseHeader_data_ne_nil _ _ _ _ _ _ (List.append_eq_nil_iff.mp h).1

theorem reply_html (w : World) (keepAlive : Bool) (code : Int) (title message : Str) :
    Reply fun url => .ok (w, HttpResponse.sendText ⟨url, [], [], []⟩ keepAlive code title message) := by
  refine .builds w (HttpResponse.sendText ⟨[], [], [], []⟩ keepAlive code title message).responseData
    ?_ fun _ => rfl
  intro h
  exact buildResponseHeader_data_ne_nil _ _ _ _ _ _ (List.append_eq_nil_iff.mp h).1

/-- A login that fails leaves the response alone; any other login replies. -/
theorem reply_login (env : Environment) (base : HttpBase) (w : World) :
    (LoginFails w base → ∃ w', ∀ r, UserController.login env base w r = .ok (w', r)) ∧
    (¬ LoginFails w base → Reply fun url => UserController.login env base w ⟨url, [], [], []⟩) := by
  unfold UserController.login LoginFails
  cases hl : (w.isLimit (str "login_ip") base.ip).1 with
  | true =>
    simp only [hl, if_true]
    exact ⟨fun h => absurd h.1 (by simp), fun _ => reply_json _ _ _ _⟩
  | false =>
    simp only [hl, Bool.false_eq_true, if_false, true_and]
    cases hc : UserDao.checkUser (w.isLimit (str "login_ip") base.ip).2
        ((base.formData (str "username")).getD []) ((base.formData (str "password")).getD []) with
    | error e =>
      refine ⟨?_, fun _ => .throws e fun _ => rfl⟩
      intro h
      obtain ⟨w', h⟩ := h
      cases h
    | ok answer =>
      obtain ⟨accepted, w'⟩ := answer
      cases accepted with
      | false => exact ⟨fun _ => ⟨w', fun _ => rfl⟩, fun h => absurd ⟨w', rfl⟩ h⟩
      | true =>
        refine ⟨?_, fun _ => reply_json _ _ _ _⟩
        intro h
        obtain ⟨w', h⟩ := h
        cases h

/-- Every handler but the login replies. -/
theorem reply_handler (env : Environment) (base : HttpBase) (w : World) {handler : Handler}
    (h : handler ≠ .login) : Reply fun url => handler.run env base w ⟨url, [], [], []⟩ := by
  cases handler with
  | login => exact absurd rfl h
  | apiHello => simpa only [Handler.run, TestController.hello] using reply_json _ _ _ _
  | apiTime => simpa only [Handler.run, TestController.time] using reply_json _ _ _ _
  | apiEcho => simpa only [Handler.run, TestController.echo] using reply_text _ _ _ _
  | apiInfo => simpa only [Handler.run, ModularNetServer.apiInfo] using reply_json _ _ _ _
  | registerUser => exact .redirects _ _ fun _ => rfl
  | checkToken =>
    simp only [Handler.run, UserController.checkToken]
    split_ifs
    · exact reply_json _ _ _ _
    · exact reply_json _ _ _ _
  | txTest =>
    simp only [Handler.run, TestTxController.handle]
    cases TestTxController.stringMember base.requestJson (str "username") with
    | error e => exact .throws e fun _ => rfl
    | ok username =>
      cases TestTxController.stringMember base.requestJson (str "age") with
      | error e => exact .throws e fun _ => rfl
      | ok age =>
        simp only
        cases stoi age with
        | error e => exact .throws (.std e) fun _ => rfl
        | ok age =>
          simp only
          cases TextTxDao.insertUser w username age with
          | error e => exact .throws e fun _ => rfl
          | ok answer =>
            obtain ⟨success, w'⟩ := answer
            cases success <;> exact reply_json _ _ _ _

/-- A request that does not fail to log in gets a reply. -/
theorem reply_respond {env : Environment} {w : World} {base : HttpBase}
    (h : ¬ FailedLogin env w base) :
    Reply fun url => respond env (gate env w base).1 (gate env w base).2.2 (gate env w base).2.1
      ⟨url, [], [], []⟩ := by
  unfold FailedLogin at h
  generalize gate env w base = g at h ⊢
  obtain ⟨verdict, w', base'⟩ := g
  cases verdict with
  | forbidden => simpa only [respond, HttpResponse.sendRESTfulJson] using reply_json _ _ _ _
  | unauthenticated => simpa only [respond, HttpResponse.sendRESTfulJson] using reply_json _ _ _ _
  | dispatch =>
    simp only [true_and, not_and] at h
    simp only [respond, Router.dispatch]
    cases hr : Router.route env base'.method base'.url with
    | none =>
      simp only
      split_ifs
      · exact .redirects _ _ fun _ => rfl
      · exact reply_html _ _ _ _ _
    | some handler =>
      by_cases hlogin : handler = .login
      · subst hlogin
        exact (reply_login env base' _).2 (h hr)
      · exact reply_handler env base' _ hlogin

/-- A request that fails to log in leaves the response alone. -/
theorem respond_failedLogin {env : Environment} {w : World} {base : HttpBase}
    (h : FailedLogin env w base) :
    ∃ w', ∀ r, respond env (gate env w base).1 (gate env w base).2.2 (gate env w base).2.1 r =
      .ok (w', r) := by
  obtain ⟨hv, hr, hl⟩ := h
  obtain ⟨w', hw⟩ := (reply_login env _ _).1 hl
  refine ⟨w', ?_⟩
  intro r
  simp only [hv, respond, Router.dispatch, hr]
  exact hw r

/-! ## The file system is only read -/

theorem gate_url (env : Environment) (w : World) (base : HttpBase) :
    (gate env w base).2.2.url = base.url := by
  unfold gate parseAuthContext
  grind [HttpBase.setUsername]

@[simp] theorem files_gate (env : Environment) (w : World) (base : HttpBase) :
    (gate env w base).2.1.files = w.files := by
  unfold gate parseAuthContext
  grind [World.tick]

theorem files_failedLogin {env : Environment} {w w' : World} {base : HttpBase}
    (h : FailedLogin env w base)
    (hr : ∀ r, respond env (gate env w base).1 (gate env w base).2.2 (gate env w base).2.1 r =
      .ok (w', r)) : w'.files = w.files := by
  obtain ⟨hv, hroute, hlim, w'', hcheck⟩ := h
  have h0 := hr HttpResponse.empty
  simp only [hv, respond, Router.dispatch, hroute, Handler.run, UserController.login, hlim,
    Bool.false_eq_true, if_false, hcheck] at h0
  cases h0
  rw [UserDao.checkUser_world hcheck, World.files_query, World.files_isLimit, World.files_emit, files_gate]

/-! ## The response of a connection that has been reset -/

/-- The response that copies `data`. -/
def builtResponse (data : Str) : Response :=
  ⟨decide (data.length < 4096), data, if data.length < 4096 then data else [], none, 0, 0⟩

/-- The response data of `generateResponse` for a file with a MIME type. -/
def fileHeader (base : HttpBase) (window : FileWindow) (fileSize : Int) (mimeType : Str) : Str :=
  ((windowHeaders window fileSize HttpResponse.empty).buildResponseHeader base.keepAlive
    window.statusCode window.statusText mimeType window.contentLength).responseData

/-- The response of `generateResponse` for a response URL. -/
def fileResponse (env : Environment) (files : FileSystem) (base : HttpBase) (url : Str) : Response :=
  let file := resolveUrl env files url
  let path := Scan.upTo 0 file.2.1
  if files.canOpen path then
    let window := chooseWindow base.range 0 (toInt32 file.2.2)
    let data := fileHeader base window (toInt32 file.2.2) (getMimeType file.1)
    { builtResponse data with
      fileFd := some path, fileOffset := window.offset, fileResponseSize := window.responseSize }
  else ⟨false, [], [], none, 0, 0⟩

/-- The response URL that a request for `/` replaces. -/
def chosenUrl (base : HttpBase) (url : Str) : Str :=
  if base.url = str "/" then str "/index.html" else url

theorem windowHeaders_sendRedirect (window : FileWindow) (fileSize : Int) (url url' : Str) :
    windowHeaders window fileSize (HttpResponse.sendRedirect ⟨url, [], [], []⟩ url') =
      { windowHeaders window fileSize HttpResponse.empty with responseUrl := url' } := by
  unfold windowHeaders HttpResponse.setHeader
  split_ifs <;> rfl

/-- The response of a connection whose response data has been copied. -/
theorem response_copyResponseData (w : World) (c : HttpConn) (h : c.writeBuf = []) :
    response (.ok (c.copyResponseData.1, w, c.copyResponseData.2)) =
      .ok { builtResponse c.httpResponse.responseData with
        fileFd := c.fileFd, fileOffset := c.fileOffset, fileResponseSize := c.fileResponseSize } := by
  unfold copyResponseData builtResponse response
  by_cases hlen : 4096 ≤ c.httpResponse.responseData.length
  · simp only [hlen, if_true, not_lt.mpr hlen, if_false, decide_false, h]
  · simp only [hlen, if_false, not_le.mp hlen, if_true, decide_true]

/-- A response that a handler has built is copied. -/
theorem response_finish_built (env : Environment) (w : World) (c : HttpConn) (sockfd : Int) (side : ReadSide)
    (url data : Str) (hne : data ≠ []) :
    response (.ok (finish env w { c.ready sockfd side with httpResponse := ⟨url, [], [], data⟩ })) =
      .ok (builtResponse data) := by
  have hbuilt : (!data.isEmpty) = true := by simpa using hne
  simp only [finish, HttpResponse.isBuilt, hbuilt, if_true]
  exact response_copyResponseData w _ rfl

/-- Closing the connection after a failure leaves the response. -/
theorem response_finish_generate (env : Environment) (w : World) (c : HttpConn)
    (h : c.httpResponse.responseData = []) :
    response (.ok (finish env w c)) = response (.ok (generateResponse env w c)) := by
  simp only [finish, HttpResponse.isBuilt, h, List.isEmpty_nil, Bool.not_true, Bool.false_eq_true,
    if_false]
  generalize generateResponse env w c = result
  obtain ⟨built, w', c'⟩ := result
  cases built with
  | true => rfl
  | false =>
    simp only [response, closeConn]
    split_ifs <;> rfl

/-- Without a built response the file of the response URL is sent. -/
theorem response_finish_file (env : Environment) (w : World) (c : HttpConn) (sockfd : Int) (side : ReadSide)
    (url : Str) :
    response (.ok (finish env w { c.ready sockfd side with httpResponse := ⟨url, [], [], []⟩ })) =
      .ok (fileResponse env w.files side.httpBase (chosenUrl side.httpBase url)) := by
  rw [response_finish_generate _ _ _ rfl]
  have hurl : responseUrl { c.ready sockfd side with httpResponse := ⟨url, [], [], []⟩ } =
      chosenUrl side.httpBase url := rfl
  unfold generateResponse fileResponse
  simp only [hurl]
  generalize resolveUrl env w.files (chosenUrl side.httpBase url) = file
  obtain ⟨url', path, size⟩ := file
  simp only [World.files_emit]
  by_cases hopen : w.files.canOpen (Scan.upTo 0 path)
  · simp only [hopen, Bool.not_true, Bool.false_eq_true, if_false, if_true]
    rw [response_copyResponseData _ _ rfl]
    simp only [windowHeaders_sendRedirect]
    rfl
  · simp only [hopen, Bool.not_false, if_true, Bool.false_eq_true, if_false]
    rfl

/-- The answer of `handleRequest` on a connection that has been reset, by the response URL that the
    reset has left. -/
theorem response_handleRequest (env : Environment) (w : World) (c : HttpConn) (sockfd : Int) (side : ReadSide) :
    response (handleRequest env w (c.ready sockfd side)) =
      match respond env (gate env w side.httpBase).1 (gate env w side.httpBase).2.2
        (gate env w side.httpBase).2.1 ⟨c.httpResponse.responseUrl, [], [], []⟩ with
      | .error e => .error e
      | .ok (w', r) => response (.ok (finish env w'
        { c.ready sockfd { side with httpBase := (gate env w side.httpBase).2.2 } with httpResponse := r })) := by
  have hr : (c.ready sockfd side).httpResponse = ⟨c.httpResponse.responseUrl, [], [], []⟩ := rfl
  have hb : (c.ready sockfd side).httpBase = side.httpBase := rfl
  unfold handleRequest
  simp only [hr, hb]
  cases respond env (gate env w side.httpBase).1 (gate env w side.httpBase).2.2
    (gate env w side.httpBase).2.1 ⟨c.httpResponse.responseUrl, [], [], []⟩ with
  | error e => rfl
  | ok result => rfl

/-! ## When two response URLs make a difference -/

/-- The size is that of the file, if it can be found. -/
theorem resolveUrl_size (env : Environment) (files : FileSystem) (url : Str) :
    (resolveUrl env files url).2.2 =
      (files.stat (Scan.upTo 0 (resolveUrl env files url).2.1)).getD files.unfilled := by
  cases h : files.stat (Scan.upTo 0 (env.webRoot ++ url)) with
  | none => rw [resolveUrl_none h]
  | some size =>
    rw [resolveUrl_some h]
    simp only [h, Option.getD_some]

/-- Two headers for the same window are equal only for the same MIME type. -/
theorem fileHeader_inj {base : HttpBase} {window : FileWindow} {fileSize : Int} {mime mime' : Str} :
    fileHeader base window fileSize mime = fileHeader base window fileSize mime' ↔ mime = mime' := by
  unfold fileHeader HttpResponse.buildResponseHeader
  simp only [List.append_assoc, List.append_cancel_left_eq, List.append_cancel_right_eq]

theorem fileResponse_eq_iff (env : Environment) (files : FileSystem) (base : HttpBase)
    (url url' : Str) :
    fileResponse env files base url = fileResponse env files base url' ↔
      SameFile env files url url' := by
  have hsize := resolveUrl_size env files url
  have hsize' := resolveUrl_size env files url'
  unfold fileResponse SameFile
  generalize resolveUrl env files url = file at *
  generalize resolveUrl env files url' = file' at *
  obtain ⟨target, path, size⟩ := file
  obtain ⟨target', path', size'⟩ := file'
  simp only at hsize hsize' ⊢
  cases hopen : files.canOpen (Scan.upTo 0 path) with
  | false =>
    cases hopen' : files.canOpen (Scan.upTo 0 path') with
    | false => simp
    | true => simp
  | true =>
    cases hopen' : files.canOpen (Scan.upTo 0 path') with
    | false => simp
    | true =>
      simp only [if_true, true_and, forall_const]
      constructor
      · intro h
        have hpath : Scan.upTo 0 path = Scan.upTo 0 path' := Option.some.inj (congrArg Response.fileFd h)
        have hdata := congrArg Response.responseData h
        rw [hsize, hsize', hpath] at hdata
        exact ⟨hpath, fileHeader_inj.mp hdata⟩
      · rintro ⟨hpath, hmime⟩
        rw [hsize, hsize', hpath, hmime]

/-! ## Isolation -/

theorem ip_generateResponse (env : Environment) (w : World) (c : HttpConn) :
    (generateResponse env w c).2.2.ip = c.ip := by
  unfold generateResponse copyResponseData
  grind

theorem ip_finish (env : Environment) (w : World) (c : HttpConn) :
    (finish env w c).2.2.ip = c.ip := by
  have hgen := ip_generateResponse env w c
  unfold finish copyResponseData closeConn
  grind

/-- Answering a request leaves the address alone. -/
theorem ip_process {env : Environment} {w w' : World} {c c' : HttpConn} {b : Bool}
    (h : process env w c = .ok (b, w', c')) : c'.ip = c.ip := by
  have hfin := ip_finish env
  unfold process handleRequest copyResponseData at h
  grind

theorem ip_recvAll (c : HttpConn) (results : List RecvResult) : (recvAll c results).2.ip = c.ip := by
  induction results generalizing c with
  | nil => rfl
  | cons result results ih =>
    cases result with
    | received first rest =>
      simp only [recvAll]
      split_ifs
      · rfl
      · rw [ih]
    | again => rfl
    | failed => rfl
    | eof => rfl

theorem ip_step {env : Environment} {c c' : HttpConn} {s : Step} (h : step env c s = .ok c') :
    c'.ip = c.ip := by
  cases s with
  | read mode results =>
    cases h
    cases mode with
    | LT =>
      simp only [read, recvOnce]
      grind
    | ET =>
      have hall := ip_recvAll c results
      simp only [read]
      grind
  | process world =>
    simp only [step] at h
    split at h
    · cases h
    · rename_i hp
      cases h
      exact ip_process hp
  | write results =>
    cases h
    rfl
  | reset =>
    cases h
    rfl

theorem ip_run {env : Environment} {c c' : HttpConn} {steps : List Step}
    (h : run env c steps = .ok c') : c'.ip = c.ip := by
  induction steps generalizing c with
  | nil =>
    cases h
    rfl
  | cons s steps ih =>
    simp only [run] at h
    split at h
    · cases h
    · rename_i hs
      rw [ih h, ip_step hs]

/-- The response to a parsed request, by the response URLs that two resets have left. -/
theorem response_eq_iff (env : Environment) (w : World) (c c' : HttpConn) (sockfd : Int)
    (side : ReadSide) :
    response (handleRequest env w (c.ready sockfd side)) =
        response (handleRequest env w (c'.ready sockfd side)) ↔
      (FailedLogin env w side.httpBase → side.httpBase.url ≠ str "/" →
        SameFile env w.files c.httpResponse.responseUrl c'.httpResponse.responseUrl) := by
  rw [response_handleRequest, response_handleRequest]
  by_cases hlogin : FailedLogin env w side.httpBase
  · obtain ⟨w', hw⟩ := respond_failedLogin hlogin
    simp only [hw, response_finish_file, files_failedLogin hlogin hw, Except.ok.injEq,
      fileResponse_eq_iff, hlogin, forall_const, chosenUrl, gate_url]
    by_cases hroot : side.httpBase.url = str "/"
    · simp [hroot, SameFile]
    · simp [hroot]
  · simp only [hlogin, false_imp_iff, iff_true]
    cases reply_respond hlogin with
    | throws e h => simp only [h]
    | builds w' data hne h => simp only [h, response_finish_built _ _ _ _ _ _ _ hne]
    | redirects w' url h => simp only [h, response_finish_file]

/-- **A reused connection answers like a new one** unless the request is a failed login, other than
    on `/`, and the response URL that an earlier request has left stands for another file than the
    empty one. -/
theorem answers_like_fresh_iff (env : Environment) (sockfd : Int) (ip : Str) {history : List Step}
    {c : HttpConn} (h : run env (fresh sockfd ip) history = .ok c) (w : World) (chunks : List Str) :
    answerNext env w (c.init sockfd) chunks = answerNext env w (fresh sockfd ip) chunks ↔
      ∀ side, ReadSide.feed env.parseJson (ReadSide.init ip) chunks = .ok (true, side) →
        FailedLogin env w side.httpBase → side.httpBase.url ≠ str "/" →
          SameFile env w.files c.httpResponse.responseUrl [] := by
  have hip : c.ip = ip := ip_run h
  have hside : (c.init sockfd).toReadSide = ReadSide.init ip := by rw [← hip]; rfl
  have hside' : (fresh sockfd ip).toReadSide = ReadSide.init ip := rfl
  unfold answerNext
  rw [hside, hside']
  cases hfeed : ReadSide.feed env.parseJson (ReadSide.init ip) chunks with
  | error e => simp
  | ok answer =>
    obtain ⟨complete, side⟩ := answer
    cases complete with
    | false => simp
    | true =>
      have hmap : Function.Injective (Except.map some : Except Escape Response → _) := by
        intro r r' hr
        cases r <;> cases r' <;> cases hr <;> rfl
      have hiff := hmap.eq_iff.trans (response_eq_iff env w c (fresh sockfd ip) sockfd side)
      simp only [Except.ok.injEq, Prod.mk.injEq, true_and, forall_eq']
      exact hiff

/-! ## A failed login after a page -/

/-- A server in `/www` whose database knows nobody. -/
def loginEnvironment : Environment :=
  Router.environment ⟨fun _ _ => [], id⟩ (fun _ => none) (fun _ => ⟨2025, 1, 1, 0, 0, 0⟩) (str "/www")
    ⟨8080, 8, 0, 0⟩

/-- A directory `/www` with the page `index.html`, and no limits. -/
def loginWorld : World :=
  World.start (fun n => n) (fun n => n) (str "1") (fun _ _ => ⟨true, true, true, true, true, true, []⟩)
    ⟨fun path => if path = str "/www" then some 4096 else
        if path = str "/www/index.html" then some 5 else none,
      fun path => decide (path = str "/www" ∨ path = str "/www/index.html"), 0⟩ true true

/-- The page is requested, sent, and the connection reset. -/
def pageHistory : List Step :=
  [.read .LT [.received 71 (str "ET /index.html HTTP/1.1\r\n\r\n")], .process loginWorld,
    .write [.accepts 4096, .accepts 5], .reset]

/-- The file that an answer sends. -/
def sentFile (answer : Except Escape (Option Response)) : Option Str :=
  match answer with
  | .ok (some r) => r.fileFd
  | _ => none

/-- After the page the failed login is answered with the page, on a new connection with the
    directory. -/
theorem failed_login_resends_page :
    ∃ c, run loginEnvironment (fresh 5 (str "10.0.0.1")) pageHistory = .ok c ∧
      answerNext loginEnvironment loginWorld (c.init 5) [str "POST /login HTTP/1.1\r\n\r\n"] ≠
        answerNext loginEnvironment loginWorld (fresh 5 (str "10.0.0.1"))
          [str "POST /login HTTP/1.1\r\n\r\n"] := by
  have hpage : (run loginEnvironment (fresh 5 (str "10.0.0.1")) pageHistory).toOption.map (fun c =>
      sentFile (answerNext loginEnvironment loginWorld (c.init 5)
        [str "POST /login HTTP/1.1\r\n\r\n"])) = some (some (str "/www/index.html")) := by
    decide +kernel
  have hdir : sentFile (answerNext loginEnvironment loginWorld (fresh 5 (str "10.0.0.1"))
      [str "POST /login HTTP/1.1\r\n\r\n"]) = some (str "/www") := by
    decide +kernel
  cases hrun : run loginEnvironment (fresh 5 (str "10.0.0.1")) pageHistory with
  | error e => simp [hrun, Except.toOption] at hpage
  | ok c =>
    refine ⟨c, rfl, ?_⟩
    intro heq
    simp only [hrun, Except.toOption, Option.map_some, Option.some.injEq] at hpage
    rw [heq, hdir] at hpage
    exact absurd hpage (by decide)

theorem answers_like_fresh_pageHistory :
    ∃ c, run loginEnvironment (fresh 5 (str "10.0.0.1")) pageHistory = .ok c ∧
      (answerNext loginEnvironment loginWorld (c.init 5) [str "GET / HTTP/1.1\r\n\r\n"] =
        answerNext loginEnvironment loginWorld (fresh 5 (str "10.0.0.1"))
          [str "GET / HTTP/1.1\r\n\r\n"] ↔
      ∀ side, ReadSide.feed loginEnvironment.parseJson (ReadSide.init (str "10.0.0.1"))
          [str "GET / HTTP/1.1\r\n\r\n"] = .ok (true, side) →
        FailedLogin loginEnvironment loginWorld side.httpBase → side.httpBase.url ≠ str "/" →
          SameFile loginEnvironment loginWorld.files c.httpResponse.responseUrl []) := by
  have hrun : (run loginEnvironment (fresh 5 (str "10.0.0.1")) pageHistory).toOption.isSome = true := by
    decide +kernel
  cases h : run loginEnvironment (fresh 5 (str "10.0.0.1")) pageHistory with
  | error e => simp [h, Except.toOption] at hrun
  | ok c =>
    exact ⟨c, rfl, answers_like_fresh_iff loginEnvironment 5 (str "10.0.0.1") h loginWorld
      [str "GET / HTTP/1.1\r\n\r\n"]⟩

end HttpConn

end ModularNetServer
