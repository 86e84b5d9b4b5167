import ModularNetServer.Http.ServedConn
import ModularNetServer.Http.ResponseCalls
import ModularNetServer.Http.Proofs.DeliveryProofs
import ModularNetServer.Http.Proofs.ServedConnProofs
import ModularNetServer.Json.Proofs.JsonRoundTripProofs

/-!
# What the client receives

The bytes that the socket has taken of a connection over its whole life, beside the responses that
`process` has built on it. What a file holds does not change while it is sent.
-/

namespace ModularNetServer

open Cxx

namespace WriteSide

variable (contents : Str → Str)

/-- The byte that the socket took, where `contents` tells what files hold. -/
def byteOf (s : WriteSide) : Sent → Option UInt8
  | .header i => s.writeBuf[i]?
  | .file offset => s.fileFd.bind fun path => (contents path)[offset.toNat]?

/-- The part of the file that is still to be sent. -/
def unsentFile (s : WriteSide) : Str :=
  match s.fileFd with
  | none => []
  | some path =>
    ((contents path).drop (s.fileOffset + s.fileBytesSent).toNat).take
      (s.fileResponseSize - s.fileBytesSent).toNat

/-- The part of the response that is still to be sent. -/
def unsent (s : WriteSide) : Str := (if s.headerSent then [] else s.writeBuf) ++ s.unsentFile contents

/-- The file holds the window that is to be sent. -/
def FileHolds (s : WriteSide) : Prop :=
  ∀ path ∈ s.fileFd,
    0 ≤ s.fileOffset ∧ 0 ≤ s.fileResponseSize ∧ s.fileOffset + s.fileResponseSize ≤ (contents path).length

instance (s : WriteSide) : Decidable (s.FileHolds contents) := inferInstanceAs (Decidable (∀ _ ∈ _, _))

instance NoShortSendfile.decidable (size : Nat) :
    (calls : List (List SocketResult)) → Decidable (NoShortSendfile size calls)
  | [] => isTrue trivial
  | (.accepts n :: _) :: _ => inferInstanceAs (Decidable (size ≤ max 1 n))
  | [] :: calls => decidable size calls
  | (.again :: _) :: calls => decidable size calls
  | (.fails :: _) :: calls => decidable size calls

/-- The socket takes the header in one call or nothing of it, and the file with one `sendfile` or nothing of
    it. -/
def TakesWhole (s : WriteSide) (rs : List SocketResult) : Prop :=
  if s.headerSent then NoShortSendfile (window s.fileFd s.fileResponseSize) [rs]
  else
    (acceptsAll s.writeBuf.length rs = none → takes rs = false) ∧
      ∀ rest ∈ acceptsAll s.writeBuf.length rs, NoShortSendfile (window s.fileFd s.fileResponseSize) [rest]

instance (s : WriteSide) (rs : List SocketResult) : Decidable (s.TakesWhole rs) :=
  inferInstanceAs (Decidable (if s.headerSent then _ else (_ → _ = _) ∧ ∀ rest ∈ _, NoShortSendfile _ [rest]))

end WriteSide

namespace HttpConn

/-- What the socket reports to a `write`. On a closed connection `send` and `sendfile` fail. -/
def socketResults (c : HttpConn) (results : List SocketResult) : List SocketResult :=
  if c.sockfd = -1 then [.fails] else results

/-- The bytes that the socket takes in a `write`. -/
def bytesTaken (contents : Str → Str) (c : HttpConn) (results : List SocketResult) : Str :=
  (c.toWriteSide.write (c.socketResults results)).2.1.filterMap (c.toWriteSide.byteOf contents)

/-- The connection after a `process` call, if the call has built a response. -/
def builtBy (env : Environment) (w : World) (c : HttpConn) : Option HttpConn :=
  match process env w c with
  | .ok (true, _, c) => some c
  | _ => none

/-- A reader takes the response that a connection is about to send as the answer: it is complete, says
    whether the connection is kept, and has the window of the file as its body. -/
structure IsReadAs (contents : Str → Str) (c : HttpConn) (answer : HttpReader.Response) : Prop where
  read : HttpReader.read HttpReader.always (c.unsent contents) = some (answer, [])
  version : answer.version = str "HTTP/1.1"
  connection : HttpReader.valuesOf (str "Connection") answer.fields =
    [HttpResponse.connectionValue c.httpBase.keepAlive]
  file : c.fileFd ≠ none → answer.body = c.unsentFile contents

/-- An answer that says it is JSON is the text of a value, or what a client has sent to `/api/echo`. -/
def SpeaksJson (env : Environment) (c : HttpConn) (answer : HttpReader.Response) : Prop :=
  HttpReader.valuesOf (str "Content-Type") answer.fields = [str "application/json"] →
    Json.IsText answer.body ∨
      (Router.route env c.httpBase.method c.httpBase.url = some .apiEcho ∧ answer.body = c.httpBase.requestBody)

end HttpConn

/-- The bytes that the socket has taken of a connection, and the connection after each `process` call that
    has built a response. -/
structure Wire where
  taken : Str
  built : List HttpConn

namespace Wire

/-- Nothing has been sent. -/
def empty : Wire := ⟨[], []⟩

/-- What a step adds. -/
def record (env : Environment) (contents : Str → Str) (h : Wire) (s : ServedConn) : ServedConn.Action → Wire
  | .work (.process w) => { h with built := h.built ++ (s.conn.builtBy env w).toList }
  | .work (.write results) => { h with taken := h.taken ++ s.conn.bytesTaken contents results }
  | _ => h

end Wire

namespace ServedConn

/-- The socket takes the parts of a response whole, and every file holds the window that a response to it
    announces. -/
def DeliversWhole (env : Environment) (contents : Str → Str) (s : ServedConn) : Action → Prop
  | .work (.process w) => ∀ c ∈ s.conn.builtBy env w, c.toWriteSide.FileHolds contents
  | .work (.write results) => s.conn.toWriteSide.TakesWhole (s.conn.socketResults results)
  | _ => True

instance (env : Environment) (contents : Str → Str) (s : ServedConn) :
    (a : Action) → Decidable (s.DeliversWhole env contents a)
  | .work (.process _) => inferInstanceAs (Decidable (∀ _ ∈ _, _))
  | .work (.write _) => inferInstanceAs (Decidable (WriteSide.TakesWhole _ _))
  | .work .none => isTrue trivial
  | .work (.read _) => isTrue trivial
  | .event => isTrue trivial
  | .expire => isTrue trivial
  | .shutdown => isTrue trivial
  | .destroy => isTrue trivial

/-- A client that reads what the socket has taken finds the responses that have been built, in order, but for
    the last one as long as it has not been sent to its end; while a request is to come it finds them all, and
    nothing else. -/
structure ReadInOrder (contents : Str → Str) (p : ServedConn × Wire) : Prop where
  answers : List.Forall₂ (HttpConn.IsReadAs contents)
    (p.2.built.take (HttpReader.readAll HttpReader.always p.2.taken).1.length)
    (HttpReader.readAll HttpReader.always p.2.taken).1
  last : p.2.built.length ≤ (HttpReader.readAll HttpReader.always p.2.taken).1.length + 1
  complete : p.1.awaits = true →
    (HttpReader.readAll HttpReader.always p.2.taken).1.length = p.2.built.length ∧
      (HttpReader.readAll HttpReader.always p.2.taken).2 = []

end ServedConn

end ModularNetServer
