import ModularNetServer.Session.ServedSessions
import ModularNetServer.WebSocket.WebSocketConn

/-!
# Sessions that a handshake names

What a request says about a session, apart from the code: the `sessionId` parameters in the query of its
request line, and what the expression of `extractSessionIdFromRequest` matches, wherever it stands.
-/

namespace ModularNetServer

open Cxx

/-- `isSessionAlive`. -/
def WebsocketConnManager.isSessionAlive (sessions : SessionManager) (sessionId : Str) : Bool :=
  sessions.isSessionIdValid sessionId

/-- The text before the first line end. -/
def requestLine (request : Str) : Str :=
  match Scan.find (str "\r\n") request with
  | none => request
  | some pos => request.take pos

/-- What follows the first question mark in the second word of the request line. -/
def requestQuery (request : Str) : Str :=
  ((extract (extract (requestLine request)).2).1.dropWhile (· ≠ 63)).drop 1

/-- A session is the value of a `sessionId` parameter in the query of the request line. -/
def IsSessionParameter (request sessionId : Str) : Prop :=
  str "sessionId=" ++ sessionId ∈ getlines 38 (requestQuery request)

instance (request sessionId : Str) : Decidable (IsSessionParameter request sessionId) :=
  inferInstanceAs (Decidable (_ ∈ _))

/-- `[^\s]*[?&]sessionId=([^& ]+)` matches at the start of a text, with the word that `[^\s]*` takes and
    the group. -/
def MatchesParameter (text word group : Str) : Prop :=
  NoSpace word ∧ ∃ q rest, text = word ++ q :: (str "sessionId=" ++ rest) ∧ (q = 63 ∨ q = 38) ∧
    group = rest.takeWhile (fun b => b ≠ 38 && b ≠ 32) ∧ group ≠ []

/-- `GET\s+[^\s]*[?&]sessionId=([^& ]+)` matches at the start of a text. -/
def MatchesSession (text word group : Str) : Prop :=
  ∃ spaces rest, text = str "GET" ++ (spaces ++ rest) ∧ spaces ≠ [] ∧ (∀ b ∈ spaces, isSpace b = true) ∧
    MatchesParameter rest word group

/-- The group of the match that a search finds: the leftmost one, with the longest word. -/
def FindsSession (request group : Str) : Prop :=
  ∃ pre text word, request = pre ++ text ∧ MatchesSession text word group ∧
    (∀ word' group', MatchesSession text word' group' → word'.length ≤ word.length) ∧
    ∀ pre' text', request = pre' ++ text' → pre'.length < pre.length →
      ∀ word' group', ¬ MatchesSession text' word' group'

/-- A handshake is complete and has a key. -/
def CompletesHandshake (request : Str) : Prop :=
  (Scan.find (str "\r\n\r\n") request).isSome = true ∧
    ∃ pos, Scan.find (str "Sec-WebSocket-Key: ") request = some pos ∧
      (Scan.find (str "\r\n") (request.drop (pos + (str "Sec-WebSocket-Key: ").length))).isSome = true

/-- A request completes a handshake and names a session to the search. -/
def NamesSession (request sessionId : Str) : Prop :=
  CompletesHandshake request ∧ FindsSession request sessionId

/-- A number is bound to a session in one of the two maps. -/
def WebsocketConnManager.Binds (m : WebsocketConnManager) (fd : Int) (sessionId : Str) : Prop :=
  m.fdToSession fd = some sessionId ∨ m.sessionToFd sessionId = some fd

/-- A number was bound to a session before a request, and the request does not replace the entry. -/
def WebsocketConnManager.KeepsBound (m : WebsocketConnManager) (fd : Int) (request sessionId : Str) : Prop :=
  m.sessionToFd sessionId = some fd ∨
    m.fdToSession fd = some sessionId ∧ ∀ group, ¬ NamesSession request group

end ModularNetServer
