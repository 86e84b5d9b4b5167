import ModularNetServer.Session.SessionManager
import ModularNetServer.Token.TokenManager
import ModularNetServer.Util.Interceptor
import ModularNetServer.Util.RateLimiter
import ModularNetServer.Http.HttpResponse

/-!
# What the connections share

`Environment` is what stays the same while the server runs: the routes, the configuration and the
third-party functions. `World` is the shared state that a request reads and changes: the singletons,
the file system, the answers of the database, the clock. Of the outside only its answers are
modelled: the clock and the database are sequences of answers, of which each call takes the next.
-/

namespace ModularNetServer

open Cxx

/-- The route handlers of the repository, by what they are registered for. -/
inductive Handler
  | apiHello
  | apiTime
  | apiEcho
  | apiInfo
  | login
  | registerUser
  | checkToken
  | txTest
  deriving DecidableEq

/-- The fields of `struct tm` that are printed. -/
structure LocalTime where
  year : Nat
  month : Nat
  day : Nat
  hour : Nat
  minute : Nat
  second : Nat

/-- The fields of `ServerConfig` and `NetServer` that `/api/info` shows. -/
structure ServerInfo where
  httpPort : Int
  threadNum : Int
  trigMode : Int
  actorModel : Int

/-- What does not change while the server runs. -/
structure Environment where
  crypto : CryptoUtils
  parseJson : Str → Option Json
  localTime : Int → LocalTime
  webRoot : Str
  getRoutes : Table Str Handler
  postRoutes : Table Str Handler
  info : ServerInfo

/-- The file system: `st_size` of what `stat` finds, whether a file can be opened for reading, and
    what a `struct stat` holds that no `stat` has filled. -/
structure FileSystem where
  stat : Str → Option Int
  canOpen : Str → Bool
  unfilled : Int

/-- A statement sent to the database, with its bound parameters. -/
structure Query where
  sql : Str
  params : List Str

/-- The outcomes of the client library's calls for one statement: whether each succeeds, and the
    rows fetched. -/
structure QueryAnswer where
  startTransaction : Bool
  stmtInit : Bool
  prepare : Bool
  execute : Bool
  query : Bool
  commit : Bool
  rows : List (Table Str Str)

/-- What is done that can be seen from outside a connection: a request reaches the router, a file is
    opened, or the token manager is called. A call is recorded with the clock reading of its expiry
    check and the deadline it is to set. -/
inductive Effect
  | dispatch (method path : Str)
  | openFile (path : Str)
  | createToken (token : Str) (deadline : Int)
  | refreshToken (token : Str) (now deadline : Int)
  | removeToken (token : Str)
  deriving DecidableEq

/-- The shared state. -/
structure World where
  clock : Nat → Int
  wallClock : Nat → Int
  readings : Nat
  threadId : Str
  database : Nat → Query → QueryAnswer
  queries : Nat
  files : FileSystem
  limiter : RateLimiter
  interceptor : Interceptor
  sessions : SessionManager
  tokens : TokenManager
  effects : List Effect

namespace World

/-- The shared state when the server starts. -/
def start (clock wallClock : Nat → Int) (threadId : Str) (database : Nat → Query → QueryAnswer)
    (files : FileSystem) (rateLimiterClose interceptorClose : Bool) : World where
  clock := clock
  wallClock := wallClock
  readings := 0
  threadId := threadId
  database := database
  queries := 0
  files := files
  limiter := RateLimiter.initRateLimiter rateLimiterClose
  interceptor := Interceptor.initInterceptor interceptorClose
  sessions := SessionManager.empty
  tokens := TokenManager.empty
  effects := []

/-- The next clock reading. -/
def now (w : World) : Int := w.clock w.readings

/-- Takes clock readings. -/
def tick (w : World) (n : Nat) : World := { w with readings := w.readings + n }

/-- Records an effect. -/
def emit (w : World) (e : Effect) : World := { w with effects := w.effects ++ [e] }

/-- `RateLimiter::getInstance().isLimit(type, key)`. -/
def isLimit (w : World) (type key : Str) : Bool × World :=
  let (limited, limiter) := w.limiter.isLimit w.now type key
  (limited, { w.tick 1 with limiter := limiter })

/-- `TokenManager::getInstance().createToken(username, timeout_ms)`. -/
def createToken (env : Environment) (w : World) (username : Str) (timeoutMs : Int) : Str × World :=
  let now1 := w.clock w.readings
  let now2 := w.clock (w.readings + 1)
  let (token, tokens) := w.tokens.createToken env.crypto now1 now2 w.threadId username timeoutMs
  (token, ({ w.tick 2 with tokens := tokens }).emit
    (.createToken token (TimerNode.after now2 timeoutMs)))

/-- `TokenManager::getInstance().refreshToken(token, timeout_ms)`. -/
def refreshToken (env : Environment) (w : World) (token : Str) (timeoutMs : Int) : World :=
  let now1 := w.clock w.readings
  let now2 := w.clock (w.readings + 1)
  ({ w.tick 2 with tokens := w.tokens.refreshToken env.crypto now1 now2 token timeoutMs }).emit
    (.refreshToken token now1 (TimerNode.after now2 timeoutMs))

/-- `TokenManager::getInstance().removeToken(token)`. -/
def removeToken (env : Environment) (w : World) (token : Str) : World :=
  ({ w with tokens := w.tokens.removeToken env.crypto token }).emit (.removeToken token)

/-- `SessionManager::getInstance().createSession()`. -/
def createSession (w : World) : World :=
  let (_, sessions) := w.sessions.createSession (w.clock w.readings) (w.clock (w.readings + 1))
    (w.clock (w.readings + 2)) w.threadId 1800000
  { w.tick 3 with sessions := sessions }

/-- `HttpConn::refreshSession` for the session that a request names. -/
def refreshSession (w : World) (sessionId : Str) : World :=
  if sessionId = [] then w
  else if w.sessions.sessionExists sessionId then
    { w.tick 2 with
      sessions := w.sessions.refresh (w.clock w.readings) (w.clock (w.readings + 1)) sessionId
        1800000 }
  else w

/-- One statement and the database's answer. -/
def query (w : World) (sql : Str) (params : List Str) : QueryAnswer × World :=
  (w.database w.queries ⟨sql, params⟩, { w with queries := w.queries + 1 })

/-! ## The file system is only read -/

@[simp] theorem files_emit (w : World) (e : Effect) : (w.emit e).files = w.files := rfl

@[simp] theorem files_isLimit (w : World) (type key : Str) :
    (w.isLimit type key).2.files = w.files := rfl

@[simp] theorem files_query (w : World) (sql : Str) (params : List Str) :
    (w.query sql params).2.files = w.files := rfl

end World

end ModularNetServer
