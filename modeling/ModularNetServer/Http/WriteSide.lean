import ModularNetServer.Library.CxxText

/-!
# The write side of a connection

`m_write_buf` with the fields of the file to be sent, and `HttpConn::write` over the answers of the
socket. A call is given the answers that its `send` and `sendfile` calls get, in order; when they
run out the socket reports `EAGAIN`. What the socket took is recorded by position, so that a byte
sent twice is told apart from two equal bytes.
-/

namespace ModularNetServer

open Cxx

/-- What a `send` or `sendfile` on the socket reports. -/
inductive SocketResult
  | accepts (n : Nat)
  | again
  | fails
  deriving DecidableEq

/-- The number of bytes taken of `requested` many: at least one, at most all of them. -/
def SocketResult.taken (n requested : Nat) : Nat := max 1 (min n requested)

/-- `WriteStatus`. -/
inductive WriteStatus
  | ok
  | again
  | error
  deriving DecidableEq

/-- A byte handed to the socket: of `m_write_buf`, or of the file. -/
inductive Sent
  | header (i : Nat)
  | file (offset : Int)
  deriving DecidableEq

/-- The fields of `HttpConn` that sending a response uses: `m_write_buf[0..m_write_idx)`, the path
    of the file that `m_file_fd` stands for, and the counters. -/
structure WriteSide where
  writeBuf : Str
  headerSent : Bool
  filePath : Str
  fileFd : Option Str
  fileResponseSize : Int
  fileTotalSize : Int
  fileBytesSent : Int
  fileOffset : Int
  deriving DecidableEq

namespace WriteSide

/-- The write side as `HttpConn::init` leaves it; `m_file_path` is not reset. -/
def init (filePath : Str) : WriteSide where
  writeBuf := []
  headerSent := false
  filePath := filePath
  fileFd := none
  fileResponseSize := 0
  fileTotalSize := 0
  fileBytesSent := 0
  fileOffset := 0

/-- The loop that sends `m_write_buf` from `total` (`write_buf_total_sent`) on. It ends with the
    answers left over, or with the status that `write` returns. -/
def sendHeader (len total : Nat) :
    List SocketResult → Except WriteStatus (List SocketResult) × List Sent
  | [] => if total < len then (.error .again, []) else (.ok [], [])
  | r :: rs =>
    if total < len then
      match r with
      | .again => (.error .again, [])
      | .fails => (.error .error, [])
      | .accepts n =>
        let k := SocketResult.taken n (len - total)
        let (result, sent) := sendHeader len (total + k) rs
        (result, (List.range' total k).map .header ++ sent)
    else (.ok (r :: rs), [])

/-- The bytes `[start, start + k)` of the file. -/
def fileSpan (start : Int) (k : Nat) : List Sent := (List.range k).map (fun i : Nat => .file (start + i))

/-- The second half of `write`: one `sendfile` if there is a file with bytes to send. -/
def sendFile (s : WriteSide) (rs : List SocketResult) : WriteStatus × List Sent × WriteSide :=
  match s.fileFd with
  | none => (.ok, [], s)
  | some _ =>
    if s.fileBytesSent < s.fileResponseSize then
      match rs with
      | [] => (.again, [], s)
      | .again :: _ => (.again, [], s)
      | .fails :: _ => (.error, [], s)
      | .accepts n :: _ =>
        let k := SocketResult.taken n (s.fileResponseSize - s.fileBytesSent).toNat
        (.ok, fileSpan (s.fileOffset + s.fileBytesSent) k,
          { s with fileBytesSent := s.fileBytesSent + k, fileFd := none })
    else (.ok, [], { s with fileFd := none })

/-- `HttpConn::write`: the status, what the socket took, and the fields after the call. -/
def write (s : WriteSide) (rs : List SocketResult) : WriteStatus × List Sent × WriteSide :=
  if s.headerSent then sendFile s rs
  else
    match sendHeader s.writeBuf.length 0 rs with
    | (.error status, sent) => (status, sent, s)
    | (.ok rest, sent) =>
      let (status, sent', s') := sendFile { s with headerSent := true } rest
      (status, sent ++ sent', s')

/-- Successive calls of `write`: the status of each and what the socket took in it. -/
def writes (s : WriteSide) : List (List SocketResult) → List (WriteStatus × List Sent)
  | [] => []
  | rs :: calls =>
    let (status, sent, s') := write s rs
    (status, sent) :: writes s' calls

end WriteSide

end ModularNetServer
