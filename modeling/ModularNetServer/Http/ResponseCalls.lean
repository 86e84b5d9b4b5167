import ModularNetServer.Library.HttpReader
import ModularNetServer.Library.Table
import ModularNetServer.Http.HttpResponse

/-!
# Responses that a handler sends

A handler sets headers and cookies and sends, in any order and as often as it likes. The order in which the
hash maps are gone through is left open: their entries may come in another order before every call.
-/

namespace ModularNetServer

open Cxx

namespace HttpResponse

/-- `setCookie`. -/
def setCookie (r : HttpResponse) (key value : Str) : HttpResponse :=
  { r with responseCookies := setEntry key value r.responseCookies }

/-- `sendRESTfulJson` with a text, of which `buildRESTfulJson` makes `null` if it is empty. -/
def sendRESTfulText (r : HttpResponse) (keepAlive : Bool) (statusCode : Int) (message data : Str) :
    Except Escape HttpResponse :=
  r.sendRESTfulJson keepAlive statusCode message (if data = [] then .null else .string data)

/-! ## Calls -/

/-- A call that sends a response. -/
inductive Send
  | text (statusCode : Int) (title message : Str)
  | jsonText (statusCode : Int) (jsonStr : Str)
  | json (statusCode : Int) (data : Json)
  | restful (statusCode : Int) (message : Str) (data : Json)
  | restfulText (statusCode : Int) (message data : Str)

/-- A call of a handler. -/
inductive Call
  | setHeader (key value : Str)
  | setCookie (key value : Str)
  | send (s : Send)

/-- What a sending call does. -/
def Send.perform (keepAlive : Bool) (r : HttpResponse) : Send → Except Escape HttpResponse
  | .text statusCode title message => .ok (r.sendText keepAlive statusCode title message)
  | .jsonText statusCode jsonStr => .ok (r.sendJsonText keepAlive statusCode jsonStr)
  | .json statusCode data => r.sendJson keepAlive statusCode data
  | .restful statusCode message data => r.sendRESTfulJson keepAlive statusCode message data
  | .restfulText statusCode message data => r.sendRESTfulText keepAlive statusCode message data

/-- What a call does. -/
def Call.perform (keepAlive : Bool) (r : HttpResponse) : Call → Except Escape HttpResponse
  | .setHeader key value => .ok (r.setHeader key value)
  | .setCookie key value => .ok (r.setCookie key value)
  | .send s => s.perform keepAlive r

/-- The response with the entries of its maps in another order. -/
structure Reordered (r r' : HttpResponse) : Prop where
  responseUrl : r'.responseUrl = r.responseUrl
  responseHeaders : r'.responseHeaders.Perm r.responseHeaders
  responseCookies : r'.responseCookies.Perm r.responseCookies
  responseData : r'.responseData = r.responseData

/-- Calls, one after the other, none of which throws. -/
inductive Run (keepAlive : Bool) : HttpResponse → List Call → HttpResponse → Prop
  | nil (r : HttpResponse) : Run keepAlive r [] r
  | cons {r r₁ r₂ r₃ : HttpResponse} {call : Call} {calls : List Call} (horder : Reordered r r₁)
      (hcall : call.perform keepAlive r₁ = .ok r₂) (hrun : Run keepAlive r₂ calls r₃) :
      Run keepAlive r (call :: calls) r₃

/-! ## What is to be sent -/

namespace Send

/-- The status code of the response. -/
def statusCode : Send → Int
  | .text statusCode _ _ => statusCode
  | .jsonText statusCode _ => statusCode
  | .json statusCode _ => statusCode
  | .restful _ _ _ => 200
  | .restfulText _ _ _ => 200

/-- The text after the status code. -/
def statusText : Send → Str
  | .text _ title _ => title
  | _ => str "OK"

/-- The type of the body. -/
def contentType : Send → Str
  | .text _ _ _ => str "text/html"
  | _ => str "application/json"

/-- The page of a title and a message. -/
def page (statusCode : Int) (title message : Str) : Str :=
  str "<html><head><title>" ++ title ++ str "</title></head>" ++
    str "<body><h1>" ++ Cxx.toString statusCode ++ str " " ++ title ++ str "</h1>" ++
    str "<p>" ++ message ++ str "</p></body></html>"

/-- The body. -/
def body : Send → Except Escape Str
  | .text statusCode title message => .ok (page statusCode title message)
  | .jsonText _ jsonStr => .ok jsonStr
  | .json _ data => data.dump
  | .restful statusCode message data => (buildRESTfulJson statusCode message data).dump
  | .restfulText statusCode message data =>
    (buildRESTfulJson statusCode message (if data = [] then .null else .string data)).dump

end Send

/-- The headers that some calls set. -/
def headersSet (calls : List Call) : List (Str × Str) :=
  calls.filterMap fun call =>
    match call with
    | .setHeader key value => some (key, value)
    | _ => none

/-- The cookies that some calls set. -/
def cookiesSet (calls : List Call) : List (Str × Str) :=
  calls.filterMap fun call =>
    match call with
    | .setCookie key value => some (key, value)
    | _ => none

/-- A text without line ends. -/
def NoLineEnd (s : Str) : Prop := ∀ b ∈ s, b ≠ 13 ∧ b ≠ 10

instance (s : Str) : Decidable (NoLineEnd s) := inferInstanceAs (Decidable (∀ b ∈ s, b ≠ 13 ∧ b ≠ 10))

/-- Headers and cookies that do not break the header they are written into. -/
structure Settable (calls : List Call) : Prop where
  headers : ∀ kv ∈ headersSet calls, NoLineEnd kv.1 ∧ NoLineEnd kv.2 ∧ 58 ∉ kv.1
  cookies : ∀ kv ∈ cookiesSet calls, NoLineEnd kv.1 ∧ NoLineEnd kv.2
  contentLength : ∀ kv ∈ headersSet calls, ¬ LetterCase.Same kv.1 (str "Content-Length")

/-- The value of a `Connection` header. -/
def connectionValue (keepAlive : Bool) : Str := if keepAlive then str "keep-alive" else str "close"

/-- The value of a `Set-Cookie` header. -/
def cookieValue (kv : Str × Str) : Str := kv.1 ++ str "=" ++ kv.2 ++ str "; Path=/; Max-Age=1800"

/-- The fields of a response, as they are read. -/
def answerFields (keepAlive : Bool) (contentType : Str) (length : Nat) (cookies headers : List (Str × Str)) :
    List (Str × Str) :=
  [(str "Content-Type", contentType), (str "Content-Length", decimal length)] ++
    cookies.map (fun kv => (str "Set-Cookie", HttpReader.strip (cookieValue kv))) ++
    (str "Connection", connectionValue keepAlive) ::
      (if keepAlive then [(str "Keep-Alive", str "timeout=5")] else []) ++
    headers.map fun kv => (kv.1, HttpReader.strip kv.2)

/-- The response is the one that a call sends, after other calls. -/
structure IsAnswer (keepAlive : Bool) (before : List Call) (s : Send) (answer : HttpReader.Response) :
    Prop where
  version : answer.version = str "HTTP/1.1"
  code : answer.code = Cxx.toString s.statusCode
  reason : answer.reason = s.statusText
  body : s.body = .ok answer.body
  fields : ∃ cookies headers, Table.Lists cookies (Table.ofList (cookiesSet before)) ∧
    Table.Lists headers (Table.ofList (headersSet before)) ∧
    answer.fields = answerFields keepAlive s.contentType answer.body.length cookies headers
  contentLength : HttpReader.valuesOf (str "Content-Length") answer.fields = [decimal answer.body.length]
  connection : (∀ kv ∈ headersSet before, ¬ LetterCase.Same kv.1 (str "Connection")) →
    HttpReader.valuesOf (str "Connection") answer.fields = [connectionValue keepAlive]

end HttpResponse

end ModularNetServer
