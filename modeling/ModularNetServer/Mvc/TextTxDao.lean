import ModularNetServer.Library.Transition
import ModularNetServer.Db.SqlTransaction
import ModularNetServer.Mvc.Controllers

/-!
# Inserting a user

`TextTxDao::insertUser` (`test_tx_dao.cpp`) with its objects and the table it writes to, where the
controllers see only how it ends, and runs of calls on connections that come out of the pool in any order.
-/

namespace ModularNetServer

open Cxx

namespace TextTxDao

/-- The row of a user. -/
def userRow (username : Str) (age : Int) : SqlRow := [.text username, .int age]

/-- `insertUser` from the call of `prepare` on. -/
def insertRow (o : SqlOutcomes) (username : Str) (age : Int) (conn : Nat) (exec : SqlExecutor) :
    Prog (SqlServer × SqlTransaction) Exception Bool :=
  match exec.prepare o insertStatement with
  | (false, _) => pure false
  | (true, exec) => do
    let exec := (exec.bindParam 0 (.text username)).bindParam 1 (.int age)
    let executed ← Prog.lift (exec.execute o conn)
    if executed = false then pure false
    -- the user name that stands for a failure of the business logic
    else if username = str "rollback" then pure false
    else do
      SqlTransaction.commit o
      pure true

/-- `insertUser` on a server: the objects are destructed in the opposite order, however the call ends. -/
def insertUserOn (o : SqlOutcomes) (username : Str) (age : Int) : Prog SqlServer Exception Bool :=
  Prog.withFixed SqlConnRAII.make SqlConnRAII.drop fun conn =>
    Prog.withObject (SqlTransaction.make o conn) SqlTransaction.rollback <|
      Prog.withFixed (Prog.lift (SqlExecutor.make o)) (fun _ s => (SqlExecutor.drop s.1, s.2)) fun exec =>
        insertRow o username age conn exec

/-- What happens between states in which no call runs. -/
inductive Action
  /-- The queue of the pool comes into another order. -/
  | reorder (queue : List Nat)
  | insertUser (outcomes : SqlOutcomes) (username : Str) (age : Int)

/-- The server, and the rows of the calls that have returned true. -/
structure Calls where
  server : SqlServer
  returned : List SqlRow

namespace Calls

/-- A server with `connSize` connections and a table, before the first call. -/
def start (connSize : Nat) (table : List SqlRow) : Calls where
  server := ⟨SqlConnPool.init connSize, ⟨table, Table.empty⟩, 0⟩
  returned := []

/-- The rows that a call which ends so has to have added. -/
def rowsOf (username : Str) (age : Int) : Except Exception Bool → List SqlRow
  | .ok true => [userRow username age]
  | _ => []

/-- A step. -/
def step (c : Calls) : Action → Option Calls
  | .reorder queue =>
    if queue.isPerm c.server.pool.connQueue then
      some { c with server := { c.server with pool := { c.server.pool with connQueue := queue } } }
    else none
  | .insertUser o username age =>
    match insertUserOn o username age c.server with
    | none => none
    | some (r, s) => some ⟨s, c.returned ++ rowsOf username age r⟩

end Calls

end TextTxDao

end ModularNetServer
