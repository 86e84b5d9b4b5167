import ModularNetServer.Library.Transition
import ModularNetServer.Http.Proofs.ProcessProofs

/-!
# The HTTP connections of a server

Connection objects that come and go, with the shared state that their requests change. A call of `process` is one
step. Beside them a history is kept, of what the calls do: a request passes the rate limiter, the router gets it, a
statement is sent to the database. The statement of a login is kept with the password that it is sent for.
-/

namespace ModularNetServer

open Cxx

/-- A password that is checked for a connection from an address, at the clock reading of the rate limiter. -/
structure PasswordCheck where
  ip : Str
  now : Int
  username : Str
  password : Str
  statement : Nat
  deriving DecidableEq

/-- The database answers the statement, and the first row has the password. -/
def PasswordCheck.Confirmed (database : Nat → Query → QueryAnswer) (check : PasswordCheck) : Prop :=
  let answer := database check.statement ⟨UserDao.selectPassword, [check.username]⟩
  answer.stmtInit = true ∧ answer.prepare = true ∧ answer.execute = true ∧
    ∃ row ∈ answer.rows.head?, (row (str "password")).getD [] = check.password

/-- What a request does. -/
inductive ServiceEvent
  | admitted (ip : Str) (now : Int)
  | dispatch (method url username : Str)
  | checkPassword (check : PasswordCheck)
  | statement
  deriving DecidableEq

namespace ServiceEvent

/-- The router gets a request, as the effects of the shared state have it. -/
def toEffect : ServiceEvent → Option Effect
  | dispatch method url _ => some (.dispatch method url)
  | _ => none

/-- A statement is sent. -/
def isStatement : ServiceEvent → Bool
  | checkPassword _ => true
  | statement => true
  | _ => false

/-- The call of the rate limiter that lets it pass: the type, the address and the clock reading. -/
def charge : ServiceEvent → Option (Str × Str × Int)
  | admitted ip now => some (str "access_ip", ip, now)
  | checkPassword check => some (str "login_ip", check.ip, check.now)
  | _ => none

/-- The rate limiter lets it pass for an address, from `start` until before `stop`. -/
def chargedIn (type ip : Str) (start stop : Int) (e : ServiceEvent) : Bool :=
  match e.charge with
  | some (type', ip', now) => decide (type' = type ∧ ip' = ip ∧ start ≤ now ∧ now < stop)
  | none => false

end ServiceEvent

/-- The router gets a request, as the events have it. -/
def Effect.isDispatch : Effect → Bool
  | dispatch _ _ => true
  | _ => false

namespace HttpConn

/-- What a handler does for a connection from an address: a login that the rate limiter does not refuse checks a
    password. -/
def handlerEvents (ip : Str) (base : HttpBase) (w : World) : Handler → List ServiceEvent
  | .login =>
    if (w.isLimit (str "login_ip") base.ip).1 then []
    else
      [.checkPassword ⟨ip, w.now, (base.formData (str "username")).getD [],
        (base.formData (str "password")).getD [], w.queries⟩]
  | .registerUser => [.statement]
  | .txTest => [.statement]
  | _ => []

/-- What a request does that passes the interceptors. -/
def routeEvents (env : Environment) (ip : Str) (base : HttpBase) (w : World) : List ServiceEvent :=
  .dispatch base.method base.url base.username ::
    match Router.route env base.method base.url with
    | some handler => handlerEvents ip base w handler
    | none => []

/-- What `handleRequest` does. -/
def requestEvents (env : Environment) (w : World) (c : HttpConn) : List ServiceEvent :=
  let (verdict, w, base) := gate env w c.httpBase
  if verdict = .dispatch then routeEvents env c.ip base w else []

/-- What `process` does. -/
def processEvents (env : Environment) (w : World) (c : HttpConn) : List ServiceEvent :=
  (if (w.isLimit (str "access_ip") c.ip).1 then [] else [.admitted c.ip w.now]) ++
    match admitted env w c with
    | some (w, c) => requestEvents env w c
    | none => []

end HttpConn

/-- The connection objects, the shared state, and the history. -/
structure Service where
  conns : Table Nat HttpConn
  world : World
  history : List ServiceEvent

namespace Service

/-- A server that has just been started. -/
def start (world : World) : Service := ⟨Table.empty, world, []⟩

/-- What happens to the server: a connection is accepted, or something is done with one, by a thread that has its
    own name; the files change. -/
inductive Action
  | accept (i : Nat) (sockfd : Int) (ip : Str)
  | read (i : Nat) (mode : HttpConn.TrigMode) (results : List HttpConn.RecvResult)
  | process (i : Nat) (threadId : Str)
  | write (i : Nat) (results : List SocketResult)
  | init (i : Nat)
  | closeConn (i : Nat)
  | filesChange (files : FileSystem)

/-- Something is done with a connection that leaves the shared state alone. -/
def update (s : Service) (i : Nat) (f : HttpConn → HttpConn) : Option Service :=
  (s.conns i).map (fun c => { s with conns := s.conns.insert i (f c) })

/-- A step. An exception that escapes from `process` ends the server. -/
def step (env : Environment) (s : Service) : Action → Option Service
  | .accept i sockfd ip => some { s with conns := s.conns.insert i (HttpConn.fresh sockfd ip) }
  | .read i mode results => s.update i (fun c => (c.read mode results).2)
  | .process i threadId =>
    match s.conns i with
    | none => none
    | some c =>
      let w := { s.world with threadId := threadId }
      match HttpConn.process env w c with
      | .error _ => none
      | .ok (_, w', c') =>
        some ⟨s.conns.insert i c', w', s.history ++ HttpConn.processEvents env w c⟩
  | .write i results =>
    s.update i (fun c => { c with toWriteSide := (c.toWriteSide.write results).2.2 })
  | .init i => s.update i (fun c => c.init c.sockfd)
  | .closeConn i => s.update i HttpConn.closeConn
  | .filesChange files => some { s with world := { s.world with files := files } }

/-- A request that needs a login has a name that the database has confirmed a password for, at a login before it;
    or none, if its token runs out while it is checked. -/
def LoggedIn (database : Nat → Query → QueryAnswer) (before : List ServiceEvent) (username : Str) : Prop :=
  ∃ check, .checkPassword check ∈ before ∧ check.Confirmed database ∧
    (username = check.username ∨ username = [])

end Service

end ModularNetServer
