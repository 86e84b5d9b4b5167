import ModularNetServer.Http.ReadSide
import ModularNetServer.Http.WriteSide
import ModularNetServer.Mvc.Controllers

/-!
# An HTTP connection

`HttpConn` (`http_conn.cpp`): receiving, parsing, answering. `m_response_built` and the connection's
own cookie table are never read and left out, as is the log text.
-/

namespace ModularNetServer

open Cxx

/-- `HttpConn`. -/
structure HttpConn extends ReadSide, WriteSide where
  sockfd : Int
  ip : Str
  isClosed : Bool
  httpResponse : HttpResponse

namespace HttpConn

/-- A newly made connection object, initialised for a socket. -/
def fresh (sockfd : Int) (ip : Str) : HttpConn where
  toReadSide := ReadSide.init ip
  toWriteSide := WriteSide.init []
  sockfd := sockfd
  ip := ip
  isClosed := false
  httpResponse := HttpResponse.empty

/-- `HttpConn::init` with a socket and the connection's own address, as after a complete response. -/
def init (c : HttpConn) (sockfd : Int) : HttpConn where
  toReadSide := ReadSide.init c.ip
  toWriteSide := WriteSide.init c.filePath
  sockfd := sockfd
  ip := c.ip
  isClosed := false
  httpResponse := c.httpResponse.init

/-- `closeConn`. -/
def closeConn (c : HttpConn) : HttpConn :=
  if c.isClosed then c else { c with isClosed := true, sockfd := -1 }

/-! ## Receiving -/

/-- What a `recv` on the socket reports: `received first rest` for the bytes `first :: rest`. -/
inductive RecvResult
  | received (first : UInt8) (rest : Str)
  | again
  | failed
  | eof

/-- `ServerConfig::TrigMode`. -/
inductive TrigMode
  | LT
  | ET
  deriving DecidableEq

/-- The one `recv` of `read` in level-triggered mode. -/
def recvOnce (c : HttpConn) : List RecvResult → Bool × HttpConn
  | .received first rest :: _ => (true, { c with readBuf := c.readBuf.receive (first :: rest) })
  | _ => (false, c)

/-- The loop of `read` in edge-triggered mode. -/
def recvAll (c : HttpConn) : List RecvResult → Bool × HttpConn
  | [] => (true, c)
  | .received first rest :: results =>
    let c := { c with readBuf := c.readBuf.receive (first :: rest) }
    if readBufferSize ≤ c.readBuf.idx then (true, c) else recvAll c results
  | .again :: _ => (true, c)
  | .failed :: _ => (false, c)
  | .eof :: _ => (false, c)

/-- `read`, over what its `recv` calls report. When that runs out the socket reports `EAGAIN`. -/
def read (mode : TrigMode) (c : HttpConn) (results : List RecvResult) : Bool × HttpConn :=
  if c.sockfd = -1 ∨ readBufferSize ≤ c.readBuf.idx then (false, c)
  else
    match mode with
    | .LT => recvOnce c results
    | .ET => recvAll c results

/-! ## Answering -/

/-- `endsWith`. -/
def endsWith (s suffix : Str) : Bool := suffix.isSuffixOf s

/-- `getMimeType`. -/
def getMimeType (path : Str) : Str :=
  if endsWith path (str ".html") then str "text/html; charset=utf-8"
  else if endsWith path (str ".css") then str "text/css"
  else if endsWith path (str ".js") then str "application/javascript"
  else if endsWith path (str ".jpg") || endsWith path (str ".jpeg") then str "image/jpeg"
  else if endsWith path (str ".png") then str "image/png"
  else if endsWith path (str ".gif") then str "image/gif"
  else if endsWith path (str ".mp4") then str "video/mp4"
  else str "application/octet-stream"

/-- `parseAuthContext`: the session's expiry is looked up and not used; the token's is checked, and
    checked once more by `getUsername`. -/
def parseAuthContext (env : Environment) (w : World) (base : HttpBase) : World × HttpBase :=
  let sessionId := HttpRequest.getRequestCookie base (str "session_id")
  let w :=
    if w.sessions.isSessionIdValid sessionId then
      let (_, sessions) := w.sessions.isSessionIdExpired w.now sessionId
      { w.tick 1 with sessions := sessions }
    else w
  let token := HttpRequest.getToken base
  if w.tokens.isTokenValid env.crypto token then
    let (expired, tokens) := w.tokens.isTokenExpired w.now token
    let w := { w.tick 1 with tokens := tokens }
    if expired then (w, base)
    else
      let (username, tokens) := w.tokens.getUsername env.crypto w.now token
      ({ w.tick 1 with tokens := tokens }, base.setUsername username)
  else (w, base)

/-- `copyResponseData`. -/
def copyResponseData (c : HttpConn) : Bool × HttpConn :=
  if 4096 ≤ c.httpResponse.responseData.length then (false, c)
  else (true, { c with writeBuf := c.httpResponse.responseData })

/-- The window of the file and the status that `generateResponse` chooses. -/
structure FileWindow where
  offset : Int
  responseSize : Int
  statusCode : Int
  statusText : Str
  contentLength : Int

/-- The choice of the window: `m_file_offset` stays as it was unless a range sets it. -/
def chooseWindow (range : ByteRange) (fileOffset fileSize : Int) : FileWindow :=
  if range.isValid then
    if 0 ≤ range.start ∧ range.start < fileSize then
      let size :=
        if range.stop ≠ -1 ∧ range.start ≤ range.stop then toInt32 (range.stop - range.start + 1)
        else fileSize - range.start
      ⟨range.start, size, 206, str "Partial Content", size⟩
    else if range.start = -1 ∧ 0 < range.stop ∧ range.stop ≤ fileSize then
      ⟨fileSize - range.stop, range.stop, 206, str "Partial Content", range.stop⟩
    else ⟨0, 0, 416, str "Range Not Satisfiable", 0⟩
  else ⟨fileOffset, fileSize, 200, str "OK", fileSize⟩

/-- The headers that `generateResponse` adds. -/
def windowHeaders (window : FileWindow) (fileSize : Int) (r : HttpResponse) : HttpResponse :=
  if window.statusCode = 206 then
    (r.setHeader (str "Accept-Ranges") (str "bytes")).setHeader (str "Content-Range")
      (str "bytes " ++ Cxx.toString window.offset ++ str "-" ++
        Cxx.toString (toInt32 (window.offset + window.responseSize - 1)) ++ str "/" ++
        Cxx.toString fileSize)
  else if window.statusCode = 200 then r.setHeader (str "Accept-Ranges") (str "bytes")
  else r

/-- The file that `generateResponse` settles on for a response URL: the URL, the path and the size. A
    path is handed to the system as a C string. -/
def resolveUrl (env : Environment) (files : FileSystem) (url : Str) : Str × Str × Int :=
  let path := env.webRoot ++ url
  match files.stat (Scan.upTo 0 path) with
  | some size => (url, path, size)
  | none =>
    let url := str "/404.html"
    let path := env.webRoot ++ url
    (url, path, (files.stat (Scan.upTo 0 path)).getD files.unfilled)

theorem resolveUrl_some {env : Environment} {files : FileSystem} {url : Str} {size : Int}
    (h : files.stat (Scan.upTo 0 (env.webRoot ++ url)) = some size) :
    resolveUrl env files url = (url, env.webRoot ++ url, size) := by
  simp only [resolveUrl, h]

theorem resolveUrl_none {env : Environment} {files : FileSystem} {url : Str}
    (h : files.stat (Scan.upTo 0 (env.webRoot ++ url)) = none) :
    resolveUrl env files url = (str "/404.html", env.webRoot ++ str "/404.html",
      (files.stat (Scan.upTo 0 (env.webRoot ++ str "/404.html"))).getD files.unfilled) := by
  simp only [resolveUrl, h]

/-- The response URL once the default page has been mapped. -/
def responseUrl (c : HttpConn) : Str :=
  if c.httpBase.url = str "/" then str "/index.html" else c.httpResponse.responseUrl

/-- `generateResponse`. -/
def generateResponse (env : Environment) (w : World) (c : HttpConn) : Bool × World × HttpConn :=
  let (url, path, size) := resolveUrl env w.files c.responseUrl
  let fileSize := toInt32 size
  let w := w.emit (.openFile (Scan.upTo 0 path))
  let c := { c with
    writeBuf := []
    filePath := path
    fileTotalSize := fileSize
    httpResponse := c.httpResponse.sendRedirect url }
  if !w.files.canOpen (Scan.upTo 0 path) then (false, w, { c with fileFd := none })
  else
    let window := chooseWindow c.httpBase.range c.fileOffset fileSize
    let (copied, c) := copyResponseData { c with
      fileFd := some (Scan.upTo 0 path)
      fileOffset := window.offset
      fileResponseSize := window.responseSize
      httpResponse := (windowHeaders window fileSize c.httpResponse).buildResponseHeader
        c.httpBase.keepAlive window.statusCode window.statusText (getMimeType url)
        window.contentLength }
    (copied, w, c)

/-- What the interceptors decide about a request. -/
inductive Verdict
  | forbidden
  | unauthenticated
  | dispatch
  deriving DecidableEq

/-- The first half of `handleRequest`: the interceptors, and the authentication between them. -/
def gate (env : Environment) (w : World) (base : HttpBase) : Verdict × World × HttpBase :=
  if w.interceptor.shouldIntercept (str "uri_blacklist") base.url then (.forbidden, w, base)
  else
    let (w, base) := parseAuthContext env w base
    if !base.authenticated && w.interceptor.shouldIntercept (str "login_unrequired") base.url then
      (.unauthenticated, w, base)
    else (.dispatch, w, base)

/-- What is done with a request after that decision. -/
def respond (env : Environment) (verdict : Verdict) (base : HttpBase) (w : World)
    (r : HttpResponse) : Handled :=
  match verdict with
  | .forbidden => answer w (r.sendRESTfulJson base.keepAlive 403 (str "禁止访问该资源！") .null)
  | .unauthenticated => answer w (r.sendRESTfulJson base.keepAlive 401 (str "未认证，请登录！") .null)
  | .dispatch => Router.dispatch env base w r

/-- The last part of `handleRequest`: what a handler has built is copied; otherwise a file is sent,
    and the connection is closed if that fails. -/
def finish (env : Environment) (w : World) (c : HttpConn) : Bool × World × HttpConn :=
  if c.httpResponse.isBuilt then
    let (copied, c) := copyResponseData c
    (copied, w, c)
  else
    match generateResponse env w c with
    | (true, w, c) => (true, w, c)
    | (false, w, c) => (false, w, c.closeConn)

/-- `handleRequest`. -/
def handleRequest (env : Environment) (w : World) (c : HttpConn) :
    Except Escape (Bool × World × HttpConn) :=
  let (verdict, w, base) := gate env w c.httpBase
  match respond env verdict base w c.httpResponse with
  | .error e => .error e
  | .ok (w, r) => .ok (finish env w { c with httpBase := base, httpResponse := r })

/-- `process`; the callback that registers the write event is the server's business. -/
def process (env : Environment) (w : World) (c : HttpConn) :
    Except Escape (Bool × World × HttpConn) :=
  let (limited, w) := w.isLimit (str "access_ip") c.ip
  if limited then
    match c.httpResponse.sendRESTfulJson c.httpBase.keepAlive 429 (str "Too Many Requests") .null with
    | .error e => .error e
    | .ok r => .ok (true, w, (copyResponseData { c with httpResponse := r }).2)
  else
    match ReadSide.parseHttpRequest env.parseJson c.toReadSide with
    | .error e => .error e
    | .ok (false, side) => .ok (false, w, { c with toReadSide := side })
    | .ok (true, side) =>
      match handleRequest env w { c with toReadSide := side } with
      | .error e => .error e
      | .ok (false, w, c) => .ok (false, w, c)
      | .ok (true, w, c) =>
        .ok (true, w.refreshSession (HttpRequest.getRequestCookie c.httpBase (str "session_id")), c)

/-! ## The life of a connection -/

/-- What the server does with a connection, with the shared state that a request meets and the
    answers of the socket. -/
inductive Step
  | read (mode : TrigMode) (results : List RecvResult)
  | process (world : World)
  | write (results : List SocketResult)
  | reset

/-- A step of a connection. -/
def step (env : Environment) (c : HttpConn) : Step → Except Escape HttpConn
  | .read mode results => .ok (c.read mode results).2
  | .process world =>
    match process env world c with
    | .error e => .error e
    | .ok (_, _, c) => .ok c
  | .write results => .ok { c with toWriteSide := (c.toWriteSide.write results).2.2 }
  | .reset => .ok (c.init c.sockfd)

/-- The steps of a connection, until an exception ends the server. -/
def run (env : Environment) (c : HttpConn) : List Step → Except Escape HttpConn
  | [] => .ok c
  | s :: steps =>
    match step env c s with
    | .error e => .error e
    | .ok c => run env c steps

end HttpConn

end ModularNetServer
