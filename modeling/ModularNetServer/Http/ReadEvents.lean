import ModularNetServer.Http.HttpConn

/-!
# The read events of a connection

`NetServer::handleReadEvent` on one connection, event after event, over what the `recv` calls report. In
level-triggered mode an event makes one call, in edge-triggered mode calls until there is nothing left to
read. What comes between two events, the `process` call with the response and the reset after it, is a
parameter: it may close the connection, and it receives nothing.
-/

namespace ModularNetServer

open Cxx

namespace HttpConn

/-- The bytes that a `recv` delivers. -/
def RecvResult.data : RecvResult → Str
  | .received first rest => first :: rest
  | _ => []

/-- The bytes that `recv` calls deliver. -/
def received (results : List RecvResult) : Str := (results.map RecvResult.data).flatten

/-- The number of `recv` calls that the loop of `read` makes, as long as there are results. -/
def takenAll (c : HttpConn) : List RecvResult → Nat
  | [] => 0
  | .received first rest :: results =>
    let c := { c with readBuf := c.readBuf.receive (first :: rest) }
    if readBufferSize ≤ c.readBuf.idx then 1 else takenAll c results + 1
  | .again :: _ => 1
  | .failed :: _ => 1
  | .eof :: _ => 1

/-- The number of `recv` calls that `read` makes, as long as there are results. -/
def taken (mode : TrigMode) (c : HttpConn) (results : List RecvResult) : Nat :=
  if c.sockfd = -1 ∨ readBufferSize ≤ c.readBuf.idx then 0
  else
    match mode with
    | .LT => min 1 results.length
    | .ET => takenAll c results

theorem taken_pos {mode : TrigMode} {c : HttpConn} {results : List RecvResult} (hne : results ≠ [])
    (h : (c.read mode results).1 = true) : 0 < taken mode c results := by
  obtain ⟨result, results, rfl⟩ := List.exists_cons_of_ne_nil hne
  unfold read at h
  unfold taken
  split_ifs at h ⊢
  cases mode with
  | LT => exact Nat.lt_min.mpr ⟨Nat.one_pos, Nat.succ_pos _⟩
  | ET =>
    cases result with
    | received first rest =>
      simp only [takenAll]
      split_ifs <;> exact Nat.succ_pos _
    | again => exact Nat.one_pos
    | failed => exact Nat.one_pos
    | eof => exact Nat.one_pos

/-- What the server does with a connection after each read event: the connection as the next event finds
    it, or nothing if it has been closed. -/
structure Serving where
  serve : Nat → HttpConn → Option HttpConn
  sockfd_ne : ∀ {i : Nat} {c c' : HttpConn}, c.sockfd ≠ -1 → serve i c = some c' → c'.sockfd ≠ -1
  idx_le : ∀ {i : Nat} {c c' : HttpConn}, serve i c = some c' → c'.readBuf.idx ≤ c.readBuf.idx

/-- How a read event ends: with a `process` call, which finds the given bytes added, or with
    `closeConnection` after the given results. -/
inductive ReadEvent
  | processed (bytes : Str)
  | closed (results : List RecvResult)

/-- The read events of a connection, from the `i`-th on, until it is closed or the results run out. -/
def readEvents (mode : TrigMode) (s : Serving) (i : Nat) (c : HttpConn) (results : List RecvResult) :
    List ReadEvent :=
  if results = [] then []
  else if (c.read mode results).1 = true then
    .processed (received (results.take (taken mode c results))) ::
      match s.serve i (c.read mode results).2 with
      | none => []
      | some c' => readEvents mode s (i + 1) c' (results.drop (taken mode c results))
  else [.closed (results.take (taken mode c results))]
termination_by results.length
decreasing_by
  rename_i hne hread
  have hpos := taken_pos hne hread
  have hlen := List.length_pos_iff.mpr hne
  simp only [List.length_drop]
  omega

/-- The bytes with which `process` has been called. -/
def handed : List ReadEvent → Str
  | [] => []
  | .processed bytes :: events => bytes ++ handed events
  | .closed _ :: events => handed events

end HttpConn

end ModularNetServer
