import ModularNetServer.Http.ReadEvents
import ModularNetServer.Http.Proofs.ProcessProofs

/-!
# What a request is charged

`NetServer::handleReadEvent` for the chunks in which a request arrives, one `recv` result for each readable
event: the connection reads the chunk and calls `process`, which asks the limiter before it knows whether
the request is complete.
-/

namespace ModularNetServer

open Cxx

namespace RateLimiter

/-- The limiter counts calls for a type: it is not closed, and the type is registered. -/
def InForce (l : RateLimiter) (type : Str) : Prop :=
  l.rateLimiterClose = false ∧ (l.typeLimitMap type).isSome = true

instance (l : RateLimiter) (type : Str) : Decidable (l.InForce type) := inferInstanceAs (Decidable (_ ∧ _))

/-- The admissions that a call of `isLimit` consumes. -/
def admissions (l : RateLimiter) (now : Int) (type key : Str) : Nat :=
  if l.InForce type ∧ (l.isLimit now type key).1 = false then 1 else 0

end RateLimiter

namespace World

/-- The limiter counts the requests of addresses. -/
def InForce (w : World) : Prop := w.limiter.InForce (str "access_ip")

instance (w : World) : Decidable w.InForce := inferInstanceAs (Decidable (w.limiter.InForce _))

/-- The limiter refuses the next call for an address. -/
def refuses (w : World) (ip : Str) : Bool := (w.isLimit (str "access_ip") ip).1

/-- The admissions that the next call for an address consumes. -/
def admissions (w : World) (ip : Str) : Nat := w.limiter.admissions w.now (str "access_ip") ip

/-- The shared state after that call. -/
def asked (w : World) (ip : Str) : World := (w.isLimit (str "access_ip") ip).2

end World

namespace HttpConn

/-- What becomes of a request: it is still incomplete, it is refused with 429, a handler gets it, the parser
    throws, or the connection is closed. -/
inductive Fate
  | incomplete
  | refused
  | handled
  | escaped
  | closed
  deriving DecidableEq

/-- The read events of a request: the admissions that it consumes, and what becomes of it. -/
def serveChunks (env : Environment) (mode : TrigMode) :
    World → HttpConn → List RecvResult → Nat × Fate
  | _, _, [] => (0, .incomplete)
  | w, c, result :: results =>
    match c.read mode [result] with
    | (false, _) => (0, .closed)
    | (true, c) =>
      match process env w c with
      | .ok (false, w', c') =>
        if (admitted env w c).isSome then (w.admissions c.ip, .handled)
        else
          let (n, fate) := serveChunks env mode w' c' results
          (w.admissions c.ip + n, fate)
      | _ =>
        (w.admissions c.ip,
          if w.refuses c.ip then .refused
          else if (admitted env w c).isSome then .handled
          else .escaped)

/-- The chunks are those of one request: each is received, and the parser has the request with the last of
    them and not before. -/
def Completes (env : Environment) (mode : TrigMode) (c : HttpConn) : List RecvResult → Prop
  | [] => False
  | result :: results =>
    (c.read mode [result]).1 = true ∧
      ∃ done side,
        ReadSide.parseHttpRequest env.parseJson (c.read mode [result]).2.toReadSide = .ok (done, side) ∧
          (done = true ↔ results = []) ∧
          (results ≠ [] → Completes env mode { (c.read mode [result]).2 with toReadSide := side } results)

/-- The chunks are a request, cut. -/
structure Cuts (env : Environment) (mode : TrigMode) (c : HttpConn) (request : Str)
    (chunks : List RecvResult) : Prop where
  bytes : received chunks = request
  completes : Completes env mode c chunks

/-- The request is charged once for each of two ways to cut it: it consumes what one call of the limiter
    consumes, and the same becomes of it. -/
structure ChargedOnce (env : Environment) (mode : TrigMode) (w : World) (c : HttpConn)
    (chunks chunks' : List RecvResult) : Prop where
  first : (serveChunks env mode w c chunks).1 = w.admissions c.ip
  second : (serveChunks env mode w c chunks').1 = w.admissions c.ip
  fate : (serveChunks env mode w c chunks).2 = (serveChunks env mode w c chunks').2

/-- The limiter refuses the second call for an address. -/
def refusesSecond (w : World) (ip : Str) : Bool := (w.asked ip).refuses ip

end HttpConn

end ModularNetServer
