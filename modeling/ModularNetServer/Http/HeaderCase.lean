import ModularNetServer.Library.LetterCase
import ModularNetServer.Http.HeaderFields

/-!
# The letter case of header names

Requests whose header lines are given by their names and by the text after the colon, so that a name can
be spelled in another case. The parser compares each name that it knows with one fixed spelling.
-/

namespace ModularNetServer

open Cxx LetterCase

/-- A header line: its name, and the text after the colon. -/
structure HeaderText where
  name : Str
  text : Str

namespace HeaderText

/-- The line. -/
def line (h : HeaderText) : Str := h.name ++ 58 :: h.text

/-- The value that the parser takes from the text. -/
def value (h : HeaderText) : Str := HttpRequest.trimValue h.text

/-- The header has the given name, in some letter case. -/
def Named (h : HeaderText) (name : String) : Prop := Same h.name (str name)

/-- The values of the headers whose name is spelled in the given way. -/
def valuesOf (key : Str) (headers : List HeaderText) : List Str :=
  headers.filterMap fun h => if h.name = key then some h.value else none

/-- The header survives being written as a line. -/
structure IsSendable (h : HeaderText) : Prop where
  name : ∀ b ∈ h.name, b ≠ 58 ∧ b ≠ 13 ∧ b ≠ 10 ∧ b ≠ 0
  text : ∀ b ∈ h.text, b ≠ 13 ∧ b ≠ 10 ∧ b ≠ 0

end HeaderText

/-- A request, with its header lines. -/
structure TextRequest where
  method : Str
  url : Str
  version : Str
  headers : List HeaderText
  body : Str

namespace TextRequest

/-- The request with its header lines written out. -/
def raw (r : TextRequest) : RawRequest := ⟨r.method, r.url, r.version, r.headers.map HeaderText.line, r.body⟩

/-- The request is well formed: every `Content-Length`, in whatever case, gives the length of the body, and
    there is one unless the body is empty. -/
structure WellFormed (r : TextRequest) : Prop where
  method : IsToken r.method
  url : IsToken r.url
  version : IsToken r.version
  headers : ∀ h ∈ r.headers, h.IsSendable
  announces : ∀ h ∈ r.headers, h.Named "Content-Length" → stoi h.value = .ok (r.body.length : Int)
  contentLength : r.body = [] ∨ ∃ h ∈ r.headers, h.Named "Content-Length"

/-- The requests differ in the letter case of their header names at most. -/
structure Recased (r r' : TextRequest) : Prop where
  method : r'.method = r.method
  url : r'.url = r.url
  version : r'.version = r.version
  headers : List.Forall₂ (fun h h' => Same h.name h'.name ∧ h.text = h'.text) r.headers r'.headers
  body : r'.body = r.body

end TextRequest

/-- The value of the session cookie in a `Cookie` value. -/
def sessionOf (value : Str) : Str := HttpRequest.getRequestCookie.go (str "session_id") (getlines 59 value)

/-- What a request is used for. -/
structure Observed where
  body : Str
  contentLength : Int
  keepAlive : Bool
  range : ByteRange
  session : Str
  token : Str

/-- What the parsed request says. -/
def HttpBase.observed (base : HttpBase) : Observed where
  body := base.requestBody
  contentLength := base.contentLength
  keepAlive := base.keepAlive
  range := base.range
  session := HttpRequest.getRequestCookie base (str "session_id")
  token := HttpRequest.getToken base

namespace TextRequest

/-- The parser over the bytes of a new connection. -/
def parse (parseJson : Str → Option Json) (ip : Str) (r : TextRequest) : Except Escape (Bool × LineParser) :=
  LineParser.parse parseJson ⟨r.raw.bytes, .requestLine, HttpBase.init ip⟩

/-- Both requests are complete, and say the same. -/
def SayTheSame (parseJson : Str → Option Json) (ip : Str) (r r' : TextRequest) : Prop :=
  ∃ p p', r.parse parseJson ip = .ok (true, p) ∧ r'.parse parseJson ip = .ok (true, p') ∧
    p.httpBase.observed = p'.httpBase.observed

/-- The requests agree in what their headers say, of those headers that are spelled as the parser has them. -/
structure SpellTheSame (r r' : TextRequest) : Prop where
  body : r.body = [] ∨
    (HeaderText.valuesOf (str "Content-Length") r.headers = [] ↔
      HeaderText.valuesOf (str "Content-Length") r'.headers = [])
  connection : (HeaderText.valuesOf (str "connection") r.headers).getLast? = some (str "keep-alive") ↔
    (HeaderText.valuesOf (str "connection") r'.headers).getLast? = some (str "keep-alive")
  range : (HeaderText.valuesOf (str "Range") r.headers).foldl ByteRange.afterValue ByteRange.unset =
    (HeaderText.valuesOf (str "Range") r'.headers).foldl ByteRange.afterValue ByteRange.unset
  cookie : sessionOf ((HeaderText.valuesOf (str "Cookie") r.headers).getLast?.getD []) =
    sessionOf ((HeaderText.valuesOf (str "Cookie") r'.headers).getLast?.getD [])
  authorization : (HeaderText.valuesOf (str "Authorization") r.headers).getLast?.getD [] =
    (HeaderText.valuesOf (str "Authorization") r'.headers).getLast?.getD []

/-- The request has no header, in whatever case, that the parser would make anything of. -/
structure SaysNothing (r : TextRequest) : Prop where
  body : r.body = []
  connection : ∀ h ∈ r.headers, h.Named "Connection" → h.value ≠ str "keep-alive"
  range : ∀ h ∈ r.headers, h.Named "Range" →
    ByteRange.unset.afterValue h.value = ByteRange.unset
  cookie : ∀ h ∈ r.headers, h.Named "Cookie" → sessionOf h.value = []
  authorization : ∀ h ∈ r.headers, h.Named "Authorization" → h.value = []

end TextRequest

end ModularNetServer
