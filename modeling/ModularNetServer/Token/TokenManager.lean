import ModularNetServer.Library.CxxText
import ModularNetServer.Timer.TimerManager

/-!
# Tokens

`TokenManager` (`token_manager.cpp`). Every clock reading is passed in, and the functions of
`CryptoUtils` that come from OpenSSL are parameters. Nothing ticks this manager's timers, so its
callbacks (`cleanToken` of the token they name) are never run.
-/

namespace ModularNetServer

open Cxx

/-- `CryptoUtils`. -/
structure CryptoUtils where
  hmacSha256 : Str → Str → Str
  base64Encode : Str → Str

/-- `TokenManager`. -/
structure TokenManager where
  tokenUsername : Table Str Str
  tokenTimers : Table Str Int
  timerManager : TimerManager Str
  timerSeed : Int

namespace TokenManager

/-- The manager at the start of the program. -/
def empty : TokenManager := ⟨Table.empty, Table.empty, TimerManager.empty, 1000000⟩

/-- `secret_key`. -/
def secretKey : Str := str "my_server_secret_key"

variable (crypto : CryptoUtils)

/-- The token that `createToken` builds. -/
def makeToken (now : Int) (tid username : Str) : Str :=
  let tokenRaw := str "token_" ++ Cxx.toString now ++ str "_" ++ tid ++ str "_" ++ username
  let tokenBase64 := crypto.base64Encode tokenRaw
  tokenBase64 ++ str "." ++ crypto.hmacSha256 tokenBase64 secretKey

/-- `createToken` with the two clock readings it takes. -/
def createToken (m : TokenManager) (now1 now2 : Int) (tid username : Str) (timeoutMs : Int) :
    Str × TokenManager :=
  let token := makeToken crypto now1 tid username
  let timerId := m.timerSeed
  (token,
    { tokenUsername := m.tokenUsername.insert token username
      tokenTimers := m.tokenTimers.insert token timerId
      timerManager := m.timerManager.addTimer now2 timerId token timeoutMs false
      timerSeed := toInt32 (timerId + 1) })

/-- `exist`. -/
def exist (m : TokenManager) (token : Str) : Bool := (m.tokenUsername token).isSome

/-- `isTokenValid`. -/
def isTokenValid (m : TokenManager) (token : Str) : Bool :=
  match Scan.find (str ".") token with
  | none => false
  | some pos =>
    let tokenBase64 := token.take pos
    let tokenSignature := token.drop (pos + 1)
    if crypto.hmacSha256 tokenBase64 secretKey ≠ tokenSignature then false
    else m.exist token

/-- `isTokenExpired`: `m_token_timers[token]` makes an entry if there is none. -/
def isTokenExpired (m : TokenManager) (now : Int) (token : Str) : Bool × TokenManager :=
  match m.tokenTimers token with
  | some timerId => (m.timerManager.isExpired now timerId, m)
  | none => (m.timerManager.isExpired now 0, { m with tokenTimers := m.tokenTimers.insert token 0 })

/-- `removeToken`. -/
def removeToken (m : TokenManager) (token : Str) : TokenManager :=
  if m.isTokenValid crypto token then
    { m with
      tokenUsername := m.tokenUsername.erase token
      tokenTimers := m.tokenTimers.erase token }
  else m

/-- `getUsername`. -/
def getUsername (m : TokenManager) (now : Int) (token : Str) : Str × TokenManager :=
  if m.isTokenValid crypto token then
    let (expired, m) := m.isTokenExpired now token
    if expired then ([], m) else ((m.tokenUsername token).getD [], m)
  else ([], m)

/-- `refreshToken` with the two clock readings it takes. -/
def refreshToken (m : TokenManager) (now1 now2 : Int) (token : Str) (timeoutMs : Int) :
    TokenManager :=
  if m.isTokenValid crypto token then
    let (expired, m) := m.isTokenExpired now1 token
    if expired then m
    else
      match m.tokenTimers token with
      | none => m
      | some timerId =>
        { m with timerManager := m.timerManager.addTimer now2 timerId token timeoutMs false }
  else m

end TokenManager

/-! ## Runs -/

/-- A call of the manager, with the clock readings that it takes. -/
inductive TokenOp
  | createToken (now1 now2 : Int) (tid username : Str) (timeoutMs : Int)
  | exist (token : Str)
  | isTokenValid (token : Str)
  | isTokenExpired (now : Int) (token : Str)
  | removeToken (token : Str)
  | getUsername (now : Int) (token : Str)
  | refreshToken (now1 now2 : Int) (token : Str) (timeoutMs : Int)

namespace TokenManager

variable (crypto : CryptoUtils)

/-- The manager after a call. -/
def call (m : TokenManager) : TokenOp → TokenManager
  | .createToken now1 now2 tid username timeoutMs =>
    (m.createToken crypto now1 now2 tid username timeoutMs).2
  | .exist _ => m
  | .isTokenValid _ => m
  | .isTokenExpired now token => (m.isTokenExpired now token).2
  | .removeToken token => m.removeToken crypto token
  | .getUsername now token => (m.getUsername crypto now token).2
  | .refreshToken now1 now2 token timeoutMs => m.refreshToken crypto now1 now2 token timeoutMs

/-- The manager after calls. -/
def run (m : TokenManager) (ops : List TokenOp) : TokenManager := ops.foldl (call crypto) m

/-- The user names that tokens are issued to, with a call. -/
def issue (issued : Table Str Str) : TokenOp → Table Str Str
  | .createToken now1 _ tid username _ => issued.insert (makeToken crypto now1 tid username) username
  | _ => issued

/-- The user name that each token has been issued to, the last time that it was. -/
def issuedTo (ops : List TokenOp) : Table Str Str := ops.foldl (issue crypto) Table.empty

end TokenManager

end ModularNetServer
