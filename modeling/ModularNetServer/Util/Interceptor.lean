import ModularNetServer.Library.CxxText
import ModularNetServer.Library.Table

/-!
# The interceptor

`Interceptor` (`interceptor.cpp`) and the rules that `registerAllInterceptorImpl` (`init.cpp`)
registers with it.
-/

namespace ModularNetServer

open Cxx

/-- `Interceptor`. The keys of a rule are a set, kept as a list. -/
structure Interceptor where
  interceptorClose : Bool
  typeInterceptorMap : Table Str (List Str)
  typeWhiteListMap : Table Str Bool
  typeInterceptorEnableMap : Table Str Bool

namespace Interceptor

/-- `Interceptor::init`. -/
def init (interceptorClose : Bool) : Interceptor :=
  ⟨interceptorClose, Table.empty, Table.empty, Table.empty⟩

/-- `registerTypeRule`: `unordered_map::insert` keeps the keys of an earlier registration. -/
def registerTypeRule (i : Interceptor) (type : Str) (keys : List Str) (whitelist : Bool) :
    Interceptor :=
  if i.interceptorClose then i
  else
    { i with
      typeInterceptorMap :=
        if (i.typeInterceptorMap type).isSome then i.typeInterceptorMap
        else i.typeInterceptorMap.insert type keys
      typeWhiteListMap := i.typeWhiteListMap.insert type whitelist
      typeInterceptorEnableMap := i.typeInterceptorEnableMap.insert type true }

/-- `shouldIntercept`. -/
def shouldIntercept (i : Interceptor) (type key : Str) : Bool :=
  if i.interceptorClose then false
  else if i.typeInterceptorEnableMap type ≠ some true then false
  else
    match i.typeInterceptorMap type with
    | none => false
    | some keys =>
      let keyExists := decide (key ∈ keys)
      if (i.typeWhiteListMap type).getD true then !keyExists else keyExists

/-- The URLs that need no login. -/
def loginUnrequired : List Str :=
  [str "/login.html", str "/register", str "/index.html", str "/", str "/logo.jpg",
    str "/api/hello", str "/login", str "/welcome.html", str "/video.mp4",
    str "/test_transaction.html", str "/api/tx_test", str "/ws_test.html"]

/-- The URLs that are refused. -/
def uriBlacklist : List Str :=
  [str "/forbidden", str "/hack.html", str "/internal/debug", str "/admin/deleteAll",
    str "/api/hack", str "/shutdown"]

/-- `registerAllInterceptorImpl`. -/
def registerAllInterceptorImpl (i : Interceptor) : Interceptor :=
  (i.registerTypeRule (str "login_unrequired") loginUnrequired true).registerTypeRule
    (str "uri_blacklist") uriBlacklist false

/-- `initInterceptor`. -/
def initInterceptor (interceptorClose : Bool) : Interceptor :=
  registerAllInterceptorImpl (init interceptorClose)

/-- The white list intercepts every URL that is not on it. -/
theorem shouldIntercept_login (url : Str) :
    (initInterceptor false).shouldIntercept (str "login_unrequired") url =
      decide (url ∉ loginUnrequired) := by
  simp [shouldIntercept, initInterceptor, registerAllInterceptorImpl, registerTypeRule, init,
    Table.insert_apply, show str "uri_blacklist" ≠ str "login_unrequired" by decide,
    show str "login_unrequired" ≠ str "uri_blacklist" by decide]

/-- The black list intercepts the URLs on it. -/
theorem shouldIntercept_blacklist (url : Str) :
    (initInterceptor false).shouldIntercept (str "uri_blacklist") url = decide (url ∈ uriBlacklist) := by
  simp [shouldIntercept, initInterceptor, registerAllInterceptorImpl, registerTypeRule, init,
    Table.insert_apply, show str "uri_blacklist" ≠ str "login_unrequired" by decide]

end Interceptor

end ModularNetServer
