import ModularNetServer.Library.CxxText
import ModularNetServer.Library.Table

/-!
# The rate limiter

`RateLimiter` (`rate_limiter.cpp`). Times are clock readings in nanoseconds.
-/

namespace ModularNetServer

open Cxx

/-- `RequestInfo`. -/
structure RequestInfo where
  count : Int
  lastResetTime : Int

/-- `RateLimiter`. -/
structure RateLimiter where
  rateLimiterClose : Bool
  typeLimitMap : Table Str (Table Str RequestInfo)
  typeTimeWindowMap : Table Str Int
  typeMaxCountMap : Table Str Int

namespace RateLimiter

/-- A newly made limiter after `RateLimiter::init`. -/
def init (rateLimiterClose : Bool) : RateLimiter :=
  ⟨rateLimiterClose, Table.empty, Table.empty, Table.empty⟩

/-- `registerLimitRule`: `unordered_map::insert` keeps the records of an earlier registration. -/
def registerLimitRule (l : RateLimiter) (type : Str) (maxCount windowSec : Int) : RateLimiter :=
  if l.rateLimiterClose then l
  else
    { l with
      typeLimitMap :=
        if (l.typeLimitMap type).isSome then l.typeLimitMap else l.typeLimitMap.insert type Table.empty
      typeMaxCountMap := l.typeMaxCountMap.insert type maxCount
      typeTimeWindowMap := l.typeTimeWindowMap.insert type windowSec }

/-- `isLimit` at the clock reading `now`: the answer and the limiter with its records updated. -/
def isLimit (l : RateLimiter) (now : Int) (type key : Str) : Bool × RateLimiter :=
  if l.rateLimiterClose then (false, l)
  else
    match l.typeLimitMap type with
    | none => (false, l)
    | some records =>
      let store (info : RequestInfo) : RateLimiter :=
        { l with typeLimitMap := l.typeLimitMap.insert type (records.insert key info) }
      match records key with
      | none => (false, store ⟨1, now⟩)
      | some info =>
        if now - info.lastResetTime < (l.typeTimeWindowMap type).getD 0 * 1000000000 then
          if (l.typeMaxCountMap type).getD 0 ≤ info.count then (true, l)
          else (false, store { info with count := info.count + 1 })
        else (false, store ⟨1, now⟩)

/-- `clear`. -/
def clear (l : RateLimiter) (type key : Str) : RateLimiter :=
  if l.rateLimiterClose then l
  else
    match l.typeLimitMap type with
    | none => l
    | some records => { l with typeLimitMap := l.typeLimitMap.insert type (records.erase key) }

/-- `registerAllRateLimiterImpl`. -/
def registerAllRateLimiterImpl (l : RateLimiter) : RateLimiter :=
  (l.registerLimitRule (str "access_ip") 20 10).registerLimitRule (str "login_ip") 5 180

/-- `initRateLimiter`. -/
def initRateLimiter (rateLimiterClose : Bool) : RateLimiter :=
  registerAllRateLimiterImpl (init rateLimiterClose)

end RateLimiter

/-! ## Runs -/

/-- A call of the limiter; `isLimit` with the clock reading it takes. -/
inductive LimiterCall
  | isLimit (now : Int) (type key : Str)
  | clear (type key : Str)
  deriving DecidableEq

/-- What a call of `isLimit` comes to. -/
structure LimitDecision where
  type : Str
  key : Str
  now : Int
  limited : Bool

namespace RateLimiter

/-- The limiter after a call. -/
def call (l : RateLimiter) : LimiterCall → RateLimiter
  | .isLimit now type key => (l.isLimit now type key).2
  | .clear type key => l.clear type key

/-- The limiter after calls. -/
def after (l : RateLimiter) (calls : List LimiterCall) : RateLimiter := calls.foldl call l

/-- What the calls of `isLimit` come to. -/
def decisions (l : RateLimiter) : List LimiterCall → List LimitDecision
  | [] => []
  | .isLimit now type key :: calls =>
    ⟨type, key, now, (l.isLimit now type key).1⟩ :: decisions (l.isLimit now type key).2 calls
  | .clear type key :: calls => decisions (l.clear type key) calls

end RateLimiter

end ModularNetServer
