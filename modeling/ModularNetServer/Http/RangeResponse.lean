import ModularNetServer.Http.Proofs.DeliveryProofs
import ModularNetServer.Http.Proofs.RangeHeadersProofs
import ModularNetServer.Http.Proofs.ResponseProofs

/-!
# Answers to ranges

What a range asks for, as a set of positions, and what an answer to it has to be. The `int` expressions of
`generateResponse` and of the `sendfile` in `write` are listed with the integers that they stand for.
-/

namespace ModularNetServer

open Cxx WriteSide

/-- An `int` can hold the number. -/
def FitsInt (i : Int) : Prop := -2 ^ 31 ≤ i ∧ i < 2 ^ 31

/-- A request with one `Range` header. -/
def HttpBase.withRange (base : HttpBase) (value : Str) : HttpBase :=
  HttpBase.parseRange { base with requestHeaders := base.requestHeaders.insert (str "Range") value }

namespace ByteRange

/-- The positions that a range asks for in a file of `size` bytes. Without a start it asks for the last
    `stop` bytes; −1 stands for a bound that is absent. -/
def Asks (range : ByteRange) (size p : Int) : Prop :=
  0 ≤ p ∧ p < size ∧
    if range.start = -1 then size - range.stop ≤ p
    else range.start ≤ p ∧ (range.stop = -1 ∨ p ≤ range.stop)

/-- The end is absent or inside the file and not before the start, and a suffix is not longer than the
    file. -/
def EndsInside (range : ByteRange) (size : Int) : Prop :=
  (0 ≤ range.start → range.start < size → range.stop = -1 ∨ range.start ≤ range.stop ∧ range.stop < size) ∧
    (range.start = -1 → 0 < size → range.stop ≤ size)

/-- The `int` expressions that `generateResponse` evaluates. -/
def intValues (range : ByteRange) (size : Int) : List Int :=
  let window := HttpConn.chooseWindow range 0 size
  (if 0 ≤ range.start ∧ range.start < size then
    if range.stop ≠ -1 ∧ range.start ≤ range.stop then
      [range.stop - range.start, range.stop - range.start + 1]
    else [size - range.start]
  else if range.start = -1 ∧ 0 < range.stop ∧ range.stop ≤ size then [size - range.stop] else []) ++
  if window.statusCode = 206 then
    [window.offset + window.responseSize, window.offset + window.responseSize - 1]
  else []

end ByteRange

namespace WriteSide

/-- The `int` expressions around a `sendfile` that sends `sent` bytes. -/
def intValues (s : WriteSide) (sent : Nat) : List Int :=
  if s.fileBytesSent < s.fileResponseSize then
    [s.fileResponseSize - s.fileBytesSent, s.fileOffset + s.fileBytesSent, s.fileBytesSent + sent]
  else []

/-- What the socket took is a byte of the file. -/
def isFile : Sent → Bool
  | .file _ => true
  | .header _ => false

/-- Of successive calls, what the socket took of the file. -/
def bodies (results : List (WriteStatus × List Sent)) : List (WriteStatus × List Sent) :=
  results.map fun result => (result.1, result.2.filter isFile)

/-- The first `sendfile` that is taken at all is taken whole; it comes after `len` bytes of the header. -/
def TakesFileWhole (len size : Nat) : List (List SocketResult) → Prop
  | [] => True
  | rs :: calls =>
    match acceptsAll len rs with
    | some rest => NoShortSendfile size (rest :: calls)
    | none => TakesFileWhole len size calls

end WriteSide

/-! ## Answers -/

/-- The data of a 206 answer with the positions from `offset` up to `offset + length`. -/
def partialContent (keepAlive : Bool) (mime : Str) (offset length size : Int) : Str :=
  (((HttpResponse.empty.setHeader (str "Accept-Ranges") (str "bytes")).setHeader (str "Content-Range")
    (str "bytes " ++ Cxx.toString offset ++ str "-" ++ Cxx.toString (offset + length - 1) ++ str "/" ++
      Cxx.toString size)).buildResponseHeader keepAlive 206 (str "Partial Content") mime length).responseData

/-- The data of a 416 answer. -/
def rangeNotSatisfiable (keepAlive : Bool) (mime : Str) : Str :=
  (HttpResponse.empty.buildResponseHeader keepAlive 416 (str "Range Not Satisfiable") mime 0).responseData

/-- A connection is about to send, and sends in successive `write` calls, exactly what a range asks for. -/
structure SendsWindow (range : ByteRange) (keepAlive : Bool) (mime : Str) (size : Int)
    (calls : List (List SocketResult)) (c : HttpConn) : Prop where
  offset : 0 ≤ c.fileOffset
  length : 1 ≤ c.fileResponseSize
  inside : c.fileOffset + c.fileResponseSize ≤ size
  window : ∀ p, range.Asks size p ↔ c.fileOffset ≤ p ∧ p < c.fileOffset + c.fileResponseSize
  head : c.writeBuf = partialContent keepAlive mime c.fileOffset c.fileResponseSize size
  body : Delivers (fileSpan c.fileOffset c.fileResponseSize.toNat) [] (bodies (c.toWriteSide.writes calls))

/-- A connection sends no body. -/
structure SendsNothing (keepAlive : Bool) (mime : Str) (calls : List (List SocketResult)) (c : HttpConn) :
    Prop where
  length : c.fileResponseSize = 0
  head : c.writeBuf = rangeNotSatisfiable keepAlive mime
  body : Delivers [] [] (bodies (c.toWriteSide.writes calls))

/-- A range is answered with what it asks for, or, if that is nothing, as one that cannot be satisfied; and
    no `int` overflows. -/
structure AnswersRange (range : ByteRange) (keepAlive : Bool) (mime : Str) (size : Int)
    (calls : List (List SocketResult)) (c : HttpConn) : Prop where
  fits : ∀ i ∈ range.intValues size, FitsInt i
  fitsSent : ∀ n, ∀ i ∈ c.toWriteSide.intValues
    (SocketResult.taken n (c.fileResponseSize - c.fileBytesSent).toNat), FitsInt i
  satisfiable : (∃ p, range.Asks size p) → SendsWindow range keepAlive mime size calls c
  unsatisfiable : (¬ ∃ p, range.Asks size p) → SendsNothing keepAlive mime calls c

/-- The socket takes the window that a range asks for in one `sendfile`. -/
def TakesWindow (range : ByteRange) (keepAlive : Bool) (mime : Str) (size : Int)
    (calls : List (List SocketResult)) : Prop :=
  ∀ offset length, 0 < length → (∀ p, range.Asks size p ↔ offset ≤ p ∧ p < offset + length) →
    TakesFileWhole (partialContent keepAlive mime offset length size).length length.toNat calls

end ModularNetServer
