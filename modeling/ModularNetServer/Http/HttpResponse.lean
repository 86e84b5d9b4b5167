import ModularNetServer.Http.HttpRequest

/-!
# The response

`HttpResponse` (`http_response.cpp`). Status code, status text and body of the object are never read
and left out. Headers and cookies are hash maps whose order of iteration the language leaves open;
they are lists here, in the order of insertion.
-/

namespace ModularNetServer

open Cxx

/-- `HttpResponse`. -/
structure HttpResponse where
  responseUrl : Str
  responseHeaders : List (Str × Str)
  responseCookies : List (Str × Str)
  responseData : Str
  deriving DecidableEq

namespace HttpResponse

/-- A newly made response. -/
def empty : HttpResponse := ⟨[], [], [], []⟩

/-- `HttpResponse::init`: `m_response_url` is not reset. -/
def init (r : HttpResponse) : HttpResponse :=
  { r with responseHeaders := [], responseCookies := [], responseData := [] }

/-- `isBuilt`. -/
def isBuilt (r : HttpResponse) : Bool := !r.responseData.isEmpty

/-- `map[key] = value` on a list of entries. -/
def setEntry (key value : Str) : List (Str × Str) → List (Str × Str)
  | [] => [(key, value)]
  | (k, v) :: rest => if k = key then (k, value) :: rest else (k, v) :: setEntry key value rest

/-- `setHeader`. -/
def setHeader (r : HttpResponse) (key value : Str) : HttpResponse :=
  { r with responseHeaders := setEntry key value r.responseHeaders }

/-- `sendRedirect`. -/
def sendRedirect (r : HttpResponse) (newUrl : Str) : HttpResponse := { r with responseUrl := newUrl }

/-- `setNewUrl`. -/
def setNewUrl (r : HttpResponse) (newUrl : Str) : HttpResponse := { r with responseUrl := newUrl }

/-- The line of one header field. -/
def headerLine (kv : Str × Str) : Str := kv.1 ++ str ": " ++ kv.2 ++ str "\r\n"

/-- The line of one cookie. -/
def cookieLine (kv : Str × Str) : Str :=
  str "Set-Cookie: " ++ kv.1 ++ str "=" ++ kv.2 ++ str "; Path=/; Max-Age=1800\r\n"

/-- `buildResponseHeader` without extra headers, which no caller passes. -/
def buildResponseHeader (r : HttpResponse) (keepAlive : Bool) (statusCode : Int) (statusText : Str)
    (contentType : Str) (contentLength : Int) : HttpResponse :=
  { r with
    responseData :=
      str "HTTP/1.1 " ++ Cxx.toString statusCode ++ str " " ++ statusText ++ str "\r\n" ++
      str "Content-Type: " ++ contentType ++ str "\r\n" ++
      str "Content-Length: " ++ Cxx.toString contentLength ++ str "\r\n" ++
      (r.responseCookies.map cookieLine).flatten ++
      (if keepAlive then str "Connection: keep-alive\r\nKeep-Alive: timeout=5\r\n"
        else str "Connection: close\r\n") ++
      (r.responseHeaders.map headerLine).flatten ++
      str "\r\n" }

/-- `sendText`. -/
def sendText (r : HttpResponse) (keepAlive : Bool) (statusCode : Int) (title message : Str) :
    HttpResponse :=
  let html := str "<html><head><title>" ++ title ++ str "</title></head>" ++
    str "<body><h1>" ++ Cxx.toString statusCode ++ str " " ++ title ++ str "</h1>" ++
    str "<p>" ++ message ++ str "</p></body></html>"
  let r := r.buildResponseHeader keepAlive statusCode title (str "text/html") (toInt32 html.length)
  { r with responseData := r.responseData ++ html }

/-- `sendJson` of a text. -/
def sendJsonText (r : HttpResponse) (keepAlive : Bool) (statusCode : Int) (jsonStr : Str) :
    HttpResponse :=
  let r := r.buildResponseHeader keepAlive statusCode (str "OK") (str "application/json")
    (toInt32 jsonStr.length)
  { r with responseData := r.responseData ++ jsonStr }

/-- `sendJson` of a value: `dump()` throws on strings that are not UTF-8. -/
def sendJson (r : HttpResponse) (keepAlive : Bool) (statusCode : Int) (data : Json) :
    Except Escape HttpResponse :=
  match data.dump with
  | .error e => .error e
  | .ok jsonStr => .ok (r.sendJsonText keepAlive statusCode jsonStr)

/-- `buildRESTfulJson`: empty data becomes `null`. -/
def buildRESTfulJson (statusCode : Int) (message : Str) (data : Json) : Json :=
  .object [(str "code", .number (Cxx.toString statusCode)),
    (str "data", if data.isEmpty then .null else data), (str "message", .string message)]

/-- `sendRESTfulJson`; without data it is called with `null` here. -/
def sendRESTfulJson (r : HttpResponse) (keepAlive : Bool) (statusCode : Int) (message : Str)
    (data : Json) : Except Escape HttpResponse :=
  r.sendJson keepAlive 200 (buildRESTfulJson statusCode message data)

end HttpResponse

end ModularNetServer
