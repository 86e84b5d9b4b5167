import ModularNetServer.Library.Transition
import ModularNetServer.Http.HttpConn

/-!
# What a connection does with its read buffer

The uses that `init`, `read` and `parseHttpRequest` make of `m_read_buf`, in their order: searches for the
end of a line, calls of `removeLine`, and accesses to a part of the array. Where an exception is thrown they
are those before it.
-/

namespace ModularNetServer

open Cxx

/-- `strstr(m_read_buf, "\r\n")`, `removeLine(len)`, and an access to `count` bytes of the array. -/
inductive BufferUse
  | strstr (b : ReadBuffer)
  | removeLine (b : ReadBuffer) (len : Int)
  | access (first count : Int)

/-- A search finds a NUL right after the received bytes, and sees these only; a line that is removed has been
    received; an access stays within the array. -/
def BufferUse.Safe : BufferUse → Prop
  | strstr b => b.Terminated ∧ Scan.upTo 0 b.mem <+: b.pending
  | removeLine b len => 0 ≤ len ∧ len ≤ b.idx
  | access first count => 0 ≤ first ∧ 0 ≤ count ∧ first + count ≤ readBufferSize

namespace ReadBuffer

/-- The part of the array that `recv` may write. -/
def room (b : ReadBuffer) : BufferUse := .access b.idx (readBufferSize - b.idx)

/-- The part of the array that the log prints. -/
def print (b : ReadBuffer) : BufferUse := .access 0 b.idx

/-- A call of `removeLine`: the source and the target of the `memmove`, and the NUL. -/
def removeUses (b : ReadBuffer) (len : Int) : List BufferUse :=
  .removeLine b len ::
    if b.idx ≤ len then [.access 0 1]
    else [.access len (b.idx - len), .access 0 (b.idx - len), .access (b.idx - len) 1]

end ReadBuffer

namespace ReadSide

/-- One pass of the loops of `parseHttpRequest`. The exception of `parseBody` comes from the constructor of
    the body, which reads nothing then. -/
def passUses (parseJson : Str → Option Json) (c : ReadSide) : List BufferUse :=
  match c.parseState with
  | .requestLine =>
    .strstr c.readBuf ::
      match c.readBuf.strstr crlf with
      | none => []
      | some pos =>
        .access 0 pos ::
          match HttpRequest.parseRequestLine (c.readBuf.mem.take pos) c.httpBase with
          | none => []
          | some _ => c.readBuf.removeUses (pos + 2)
  | .headers =>
    .strstr c.readBuf ::
      match c.readBuf.strstr crlf with
      | none => []
      | some pos => .access 0 pos :: c.readBuf.removeUses (pos + 2)
  | .body =>
    let contentLength := c.httpBase.contentLength
    if (c.readBuf.idx : Int) < contentLength then []
    else
      match HttpRequest.parseBody parseJson c.readBuf.mem contentLength c.httpBase with
      | .error _ => []
      | .ok _ => .access 0 contentLength :: c.readBuf.removeUses contentLength
  | .done => []

/-- `parseHttpRequest`, for as many passes as it makes. -/
def parseUses (parseJson : Str → Option Json) (c : ReadSide) : List BufferUse :=
  Loop.trace (parseStep parseJson) (passUses parseJson) (parseMeasure c + 1) c

/-- The next parse begins with a search. -/
def Searches (c : ReadSide) : Prop := c.parseState = .requestLine ∨ c.parseState = .headers

instance (c : ReadSide) : Decidable c.Searches := inferInstanceAs (Decidable (_ ∨ _))

end ReadSide

namespace HttpConn

/-- The one `recv` of `read` in level-triggered mode. -/
def recvOnceUses (b : ReadBuffer) : List RecvResult → List BufferUse
  | .received first rest :: _ => [b.room, (b.receive (first :: rest)).print]
  | _ => [b.room]

/-- The loop of `read` in edge-triggered mode. -/
def recvAllUses (b : ReadBuffer) : List RecvResult → List BufferUse
  | [] => [b.room, b.print]
  | .received first rest :: results =>
    let b' := b.receive (first :: rest)
    b.room :: if readBufferSize ≤ b'.idx then [b'.print] else recvAllUses b' results
  | .again :: _ => [b.room, b.print]
  | .failed :: _ => [b.room]
  | .eof :: _ => [b.room]

def readUses (mode : TrigMode) (c : HttpConn) (results : List RecvResult) : List BufferUse :=
  if c.sockfd = -1 ∨ readBufferSize ≤ c.readBuf.idx then []
  else
    match mode with
    | .LT => recvOnceUses c.readBuf results
    | .ET => recvAllUses c.readBuf results

/-- The calls that use the buffer. -/
inductive BufferCall
  | init (sockfd : Int) (ip : Str)
  | read (results : List RecvResult)
  | parseHttpRequest

variable (mode : TrigMode) (parseJson : Str → Option Json)

/-- A call, if it throws nothing. `init` keeps socket and address unless it is given a socket. -/
def bufferStep (c : HttpConn) : BufferCall → Option HttpConn
  | .init sockfd ip => some (if sockfd = -1 then c.init c.sockfd else { c with ip := ip }.init sockfd)
  | .read results => some (c.read mode results).2
  | .parseHttpRequest =>
    match c.toReadSide.parseHttpRequest parseJson with
    | .error _ => none
    | .ok (_, side) => some { c with toReadSide := side }

def bufferUses (c : HttpConn) : BufferCall → List BufferUse
  | .init _ _ => [.access 0 readBufferSize]
  | .read results => c.readUses mode results
  | .parseHttpRequest => c.toReadSide.parseUses parseJson

/-- All that a call does with the buffer is safe. -/
def UsesSafely (c : HttpConn) (call : BufferCall) : Prop :=
  ∀ u ∈ c.bufferUses mode parseJson call, u.Safe

/-- A parse that begins with a search finds `m_read_idx` inside the array and a NUL at it. -/
def EndMarked (c : HttpConn) : BufferCall → Prop
  | .parseHttpRequest => c.Searches → c.readBuf.mem[c.readBuf.idx]? = some 0
  | _ => True

instance (c : HttpConn) : (call : BufferCall) → Decidable (c.EndMarked call)
  | .parseHttpRequest => inferInstanceAs (Decidable (_ → _))
  | .init _ _ => isTrue trivial
  | .read _ => isTrue trivial

/-- A `read` that comes before a search leaves a NUL right after the received bytes. -/
def LeavesEnd (c : HttpConn) : BufferCall → Prop
  | .read results => c.Searches → (c.read mode results).2.readBuf.Terminated
  | _ => True

end HttpConn

end ModularNetServer
