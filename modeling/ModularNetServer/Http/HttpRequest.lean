import ModularNetServer.Json.Json
import ModularNetServer.Library.Table

/-!
# The parsed request

`HttpBase` (`http_base.cpp`) holds the fields of a request; the functions of `HttpRequest`
(`http_request.cpp`) fill them from the request line, the header lines and the body. A function
that can throw returns `Except Escape`.
-/

namespace ModularNetServer

open Cxx

/-- `ByteRange`. -/
structure ByteRange where
  start : Int
  stop : Int
  isValid : Bool
  deriving DecidableEq

/-- `HttpBase`. -/
structure HttpBase where
  ip : Str
  method : Str
  url : Str
  version : Str
  requestBody : Str
  requestJson : Json
  keepAlive : Bool
  connection : Str
  contentLength : Int
  requestHeaders : Table Str Str
  formData : Table Str Str
  range : ByteRange
  username : Str
  authenticated : Bool

namespace HttpBase

/-- `HttpBase::init` on a newly made object. -/
def init (ip : Str) : HttpBase where
  ip := ip
  method := []
  url := []
  version := []
  requestBody := []
  requestJson := .null
  keepAlive := false
  connection := []
  contentLength := 0
  requestHeaders := Table.empty
  formData := Table.empty
  range := ⟨-1, -1, false⟩
  username := []
  authenticated := false

/-- `getHeader`: the empty string if there is no such header. -/
def getHeader (base : HttpBase) (key : Str) : Str := (base.requestHeaders key).getD []

/-- `setUsername`. -/
def setUsername (base : HttpBase) (username : Str) : HttpBase :=
  { base with username := username, authenticated := true }

/-- One bound of a range: untouched if its text is empty, an error if it is not a number. -/
def parseBound (text : Str) (old : Int) : Except Exception Int :=
  if text = [] then .ok old else stoi text

/-- `parseRange`: the exceptions of `std::stoi` are caught, a bound read before stays set. -/
def parseRange (base : HttpBase) : HttpBase :=
  let value := base.getHeader (str "Range")
  if str "bytes=" <+: value then
    let rangeStr := value.drop 6
    match Scan.find (str "-") rangeStr with
    | none => { base with range := { base.range with isValid := false } }
    | some pos =>
      match parseBound (rangeStr.take pos) base.range.start with
      | .error _ => { base with range := { base.range with isValid := false } }
      | .ok start =>
        match parseBound (rangeStr.drop (pos + 1)) base.range.stop with
        | .error _ => { base with range := ⟨start, base.range.stop, false⟩ }
        | .ok stop => { base with range := ⟨start, stop, true⟩ }
  else base

end HttpBase

namespace HttpRequest

/-- `getRequestCookie`: the value of the first cookie with the given name. -/
def getRequestCookie (base : HttpBase) (key : Str) : Str :=
  match base.requestHeaders (str "Cookie") with
  | none => []
  | some cookieHeader => go (getlines 59 cookieHeader)
where
  /-- The search through the `name=value` items. -/
  go : List Str → Str
    | [] => []
    | pair :: rest =>
      match Scan.find (str "=") pair with
      | none => go rest
      | some pos => if (pair.take pos).dropWhile (· == 32) = key then pair.drop (pos + 1) else go rest

/-- `getToken`. -/
def getToken (base : HttpBase) : Str := base.getHeader (str "Authorization")

/-- `parseRequestLine`: `none` if one of the three words is missing. -/
def parseRequestLine (line : Str) (base : HttpBase) : Option HttpBase :=
  let (method, rest) := extract line
  let (url, rest) := extract rest
  let (version, _) := extract rest
  if method = [] ∨ url = [] ∨ version = [] then none
  else some { base with method := method, url := url, version := version }

/-- The value of a header line after its colon: leading blanks and one trailing CR are dropped. -/
def trimValue (value : Str) : Str :=
  let value := value.dropWhile (fun b => b == 32 || b == 9)
  if value.getLast? = some 13 then value.dropLast else value

/-- Key and value of a header line; `none` if it has no colon. -/
def splitHeader (line : Str) : Option (Str × Str) :=
  match Scan.find (str ":") line with
  | none => none
  | some pos => some (line.take pos, trimValue (line.drop (pos + 1)))

/-- What `parseHeaders` does with `Content-Length`. -/
def applyContentLength (key value : Str) (base : HttpBase) : Except Escape HttpBase :=
  if key = str "Content-Length" then
    match stoi value with
    | .error e => .error (.std e)
    | .ok n => .ok { base with contentLength := n }
  else .ok base

/-- What `parseHeaders` does with `connection`. -/
def applyConnection (key value : Str) (base : HttpBase) : HttpBase :=
  if key = str "connection" then
    { base with connection := value, keepAlive := decide (value = str "keep-alive") }
  else base

/-- What `parseHeaders` does with `Range`. -/
def applyRange (key : Str) (base : HttpBase) : HttpBase :=
  if key = str "Range" then base.parseRange else base

/-- `parseHeaders`: `false` for the line that ends the headers. -/
def parseHeaders (line : Str) (base : HttpBase) : Except Escape (Bool × HttpBase) :=
  if line = str "\r\n" ∨ line = [] then .ok (false, base)
  else
    match splitHeader line with
    | none => .ok (true, base)
    | some (key, value) =>
      let base := { base with requestHeaders := base.requestHeaders.insert key value }
      match applyContentLength key value base with
      | .error e => .error e
      | .ok base => .ok (true, applyRange key (applyConnection key value base))

/-- `parseFormData`. -/
def parseFormData (base : HttpBase) : HttpBase :=
  { base with formData := (getlines 38 base.requestBody).foldl addPair Table.empty }
where
  /-- One `key=value` item of the form. -/
  addPair (result : Table Str Str) (kv : Str) : Table Str Str :=
    match Scan.find (str "=") kv with
    | none => result
    | some pos => result.insert (kv.take pos) (kv.drop (pos + 1))

/-- `parseJsonBody`: a parse error is caught and leaves the field as it was. -/
def parseJsonBody (parseJson : Str → Option Json) (base : HttpBase) : HttpBase :=
  match parseJson base.requestBody with
  | none => base
  | some json => { base with requestJson := json }

/-- `parseBody`: `std::string(read_buf, content_length)` throws on a negative length. -/
def parseBody (parseJson : Str → Option Json) (readBuf : Str) (contentLength : Int)
    (base : HttpBase) : Except Escape HttpBase :=
  if contentLength < 0 then .error (.std .lengthError)
  else
    let base := { base with requestBody := readBuf.take contentLength.toNat }
    let contentType := base.getHeader (str "Content-Type")
    if (Scan.find (str "application/x-www-form-urlencoded") contentType).isSome then
      .ok (parseFormData base)
    else if (Scan.find (str "application/json") contentType).isSome then
      .ok (parseJsonBody parseJson base)
    else .ok base

end HttpRequest

end ModularNetServer
