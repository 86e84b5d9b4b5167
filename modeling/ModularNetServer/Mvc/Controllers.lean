import ModularNetServer.Server.World

/-!
# Controllers and routes

The route handlers (`test_controller.h`, `user_controller.cpp`, `test_tx_controller.cpp`, and the one
that `NetServer::init` registers) with the database functions they call (`user_dao.cpp`,
`test_tx_dao.cpp`), and `Router::dispatch`. A handler gets the request and changes the shared state
and the response.
-/

namespace ModularNetServer

open Cxx

/-- What a handler leaves behind, or what ends its task. -/
abbrev Handled := Except Escape (World × HttpResponse)

/-! ## Database functions -/

namespace UserDao

/-- `SELECT` statement of `checkUser`. -/
def selectPassword : Str := str "SELECT password FROM user WHERE username = ? LIMIT 1"

/-- `UserDao::checkUser`: the constructor of `SqlExecutor` throws if there is no statement. -/
def checkUser (w : World) (username password : Str) : Except Escape (Bool × World) :=
  let (answer, w) := w.query selectPassword [username]
  if !answer.stmtInit then .error (.std (.runtimeError (str "Failed to init statement.")))
  else if !answer.prepare then .ok (false, w)
  else if !answer.execute then .ok (false, w)
  else
    match answer.rows with
    | [] => .ok (false, w)
    | row :: _ => .ok (decide ((row (str "password")).getD [] = password), w)

/-- `checkUser` sends one statement. -/
theorem checkUser_world {w w' : World} {username password : Str} {b : Bool}
    (h : checkUser w username password = .ok (b, w')) : w' = (w.query selectPassword [username]).2 := by
  unfold checkUser at h
  grind

/-- The text that `insertUser` builds; the library reads it up to the first NUL. -/
def insertText (username password : Str) : Str :=
  Scan.upTo 0 (str "INSERT INTO user(username, password) VALUES('" ++ username ++ str "', '" ++
    password ++ str "')")

/-- `UserDao::insertUser`. -/
def insertUser (w : World) (username password : Str) : Bool × World :=
  let (answer, w) := w.query (insertText username password) []
  (answer.query, w)

end UserDao

namespace TextTxDao

/-- `INSERT` statement of `insertUser`. -/
def insertStatement : Str := str "INSERT INTO test_tx_user (username, age) VALUES (?, ?)"

/-- `TextTxDao::insertUser`: the transaction object throws if it cannot start or commit, the
    statement object if it cannot be made. -/
def insertUser (w : World) (username : Str) (age : Int) : Except Escape (Bool × World) :=
  let (answer, w) := w.query insertStatement [username, Cxx.toString age]
  if !answer.startTransaction then .error (.std (.runtimeError (str "START TRANSACTION failed")))
  else if !answer.stmtInit then .error (.std (.runtimeError (str "Failed to init statement.")))
  else if !answer.prepare then .ok (false, w)
  else if !answer.execute then .ok (false, w)
  else if username = str "rollback" then .ok (false, w)
  else if !answer.commit then .error (.std (.runtimeError (str "COMMIT failed")))
  else .ok (true, w)

end TextTxDao

/-! ## Handlers -/

/-- A JSON answer of a handler that has changed the shared state to `w`. -/
def answer (w : World) (r : Except Escape HttpResponse) : Handled :=
  match r with
  | .error e => .error e
  | .ok r => .ok (w, r)

namespace TestController

/-- `/api/hello`. -/
def hello (base : HttpBase) (w : World) (r : HttpResponse) : Handled :=
  answer w (r.sendJson base.keepAlive 200
    (.object [(str "code", .string (str "200")), (str "message", .string (str "Hello from API"))]))

/-- `%02d`. -/
def pad2 (n : Nat) : Str := if n < 10 then str "0" ++ decimal n else decimal n

/-- `strftime` with `%Y-%m-%d %H:%M:%S`. -/
def datetime (t : LocalTime) : Str :=
  decimal t.year ++ str "-" ++ pad2 t.month ++ str "-" ++ pad2 t.day ++ str " " ++ pad2 t.hour ++
    str ":" ++ pad2 t.minute ++ str ":" ++ pad2 t.second

/-- `/api/time`. -/
def time (env : Environment) (base : HttpBase) (w : World) (r : HttpResponse) : Handled :=
  let now := w.wallClock w.readings
  answer (w.tick 1) (r.sendJson base.keepAlive 200
    (.object [
      (str "data", .object [(str "datetime", .string (datetime (env.localTime now))),
        (str "timestamp", .number (Cxx.toString now))]),
      (str "message", .string (str "successs")), (str "status", .string (str "200"))]))

/-- `/api/echo`. -/
def echo (base : HttpBase) (w : World) (r : HttpResponse) : Handled :=
  .ok (w, r.sendJsonText base.keepAlive 200 base.requestBody)

end TestController

/-- `/api/info`. -/
def apiInfo (env : Environment) (base : HttpBase) (w : World) (r : HttpResponse) : Handled :=
  answer w (r.sendJson base.keepAlive 200
    (.object [
      (str "data", .object [
        (str "actor_model", .string (if env.info.actorModel = 1 then str "Reactor" else str "Proactor")),
        (str "http_port", .number (Cxx.toString env.info.httpPort)),
        (str "thread_num", .number (Cxx.toString env.info.threadNum)),
        (str "trig_mode", .string (if env.info.trigMode = 1 then str "ET" else str "LT"))]),
      (str "message", .string (str "success")), (str "status", .string (str "200"))]))

namespace UserController

/-- What `login` answers with a token. -/
def loginData (token : Str) : Json :=
  .object [(str "code", .number (Cxx.toString 0)), (str "message", .string (str "登陆成功")),
    (str "token", .string token)]

/-- `UserController::login`: after a failed login nothing is sent. -/
def login (env : Environment) (base : HttpBase) (w : World) (r : HttpResponse) : Handled :=
  let (limited, w) := w.isLimit (str "login_ip") base.ip
  if limited then
    answer w (r.sendRESTfulJson base.keepAlive 429 (str "请求过于频繁，请稍后再试！") .null)
  else
    let username := (base.formData (str "username")).getD []
    let password := (base.formData (str "password")).getD []
    match UserDao.checkUser w username password with
    | .error e => .error e
    | .ok (false, w) => .ok (w, r)
    | .ok (true, w) =>
      let (token, w) := w.createSession.createToken env username 1800000
      answer w (r.sendRESTfulJson base.keepAlive 0 (str "OK") (loginData token))

/-- `UserController::registerUser`. -/
def registerUser (base : HttpBase) (w : World) (r : HttpResponse) : Handled :=
  let username := (base.formData (str "username")).getD []
  let password := (base.formData (str "password")).getD []
  let (success, w) := UserDao.insertUser w username password
  .ok (w, r.sendRedirect (if success then str "/register_success.html" else str "/register_error.html"))

/-- `UserController::checkToken`. -/
def checkToken (base : HttpBase) (w : World) (r : HttpResponse) : Handled :=
  if !base.authenticated then answer w (r.sendRESTfulJson base.keepAlive 401 (str "未登录") .null)
  else
    answer w (r.sendRESTfulJson base.keepAlive 0 (str "Token有效")
      (.object [(str "token", .string (HttpRequest.getToken base)),
        (str "username", .string base.username)]))

end UserController

namespace TestTxController

/-- A string member of the request's JSON value. -/
def stringMember (json : Json) (key : Str) : Except Escape Str :=
  match json.member key with
  | .error e => .error e
  | .ok value => value.getString

/-- `TestTxController::handle`: nothing is caught. -/
def handle (base : HttpBase) (w : World) (r : HttpResponse) : Handled :=
  match stringMember base.requestJson (str "username") with
  | .error e => .error e
  | .ok username =>
    match stringMember base.requestJson (str "age") with
    | .error e => .error e
    | .ok age =>
      match stoi age with
      | .error e => .error (.std e)
      | .ok age =>
        match TextTxDao.insertUser w username age with
        | .error e => .error e
        | .ok (true, w) => answer w (r.sendRESTfulJson base.keepAlive 200 (str "事务提交成功") .null)
        | .ok (false, w) =>
          answer w (r.sendRESTfulJson base.keepAlive 500 (str "事务失败，已回滚") .null)

end TestTxController

/-- The function that a handler stands for. -/
def Handler.run (env : Environment) (base : HttpBase) (w : World) (r : HttpResponse) :
    Handler → Handled
  | apiHello => TestController.hello base w r
  | apiTime => TestController.time env base w r
  | apiEcho => TestController.echo base w r
  | apiInfo => ModularNetServer.apiInfo env base w r
  | login => UserController.login env base w r
  | registerUser => UserController.registerUser base w r
  | checkToken => UserController.checkToken base w r
  | txTest => TestTxController.handle base w r

/-! ## Routes -/

namespace Router

/-- The routes that the controllers and `NetServer::init` register. -/
def getRoutes : Table Str Handler :=
  (((Table.empty.insert (str "/api/hello") .apiHello).insert (str "/api/time") .apiTime).insert
    (str "/checktoken") .checkToken).insert (str "/api/info") .apiInfo

def postRoutes : Table Str Handler :=
  (((Table.empty.insert (str "/api/echo") .apiEcho).insert (str "/login") .login).insert
    (str "/register") .registerUser).insert (str "/api/tx_test") .txTest

/-- The environment of the repository's own routes. -/
def environment (crypto : CryptoUtils) (parseJson : Str → Option Json) (localTime : Int → LocalTime)
    (webRoot : Str) (info : ServerInfo) : Environment :=
  ⟨crypto, parseJson, localTime, webRoot, getRoutes, postRoutes, info⟩

/-- The handler that is registered for a request. -/
def route (env : Environment) (method path : Str) : Option Handler :=
  if method = str "GET" then env.getRoutes path
  else if method = str "POST" then env.postRoutes path
  else none

/-- `Router::dispatch`: without a handler a `GET` goes on as a static page, anything else gets a 404
    page. -/
def dispatch (env : Environment) (base : HttpBase) (w : World) (r : HttpResponse) : Handled :=
  let w := w.emit (.dispatch base.method base.url)
  match route env base.method base.url with
  | some handler => handler.run env base w r
  | none =>
    if base.method = str "GET" then .ok (w, r.setNewUrl base.url)
    else
      .ok (w, r.sendText base.keepAlive 404 (str "Not Found")
        (str "The requested URL was not found on this server."))

end Router

end ModularNetServer
