import ModularNetServer.Library.CxxText
import ModularNetServer.Library.Scope
import ModularNetServer.Library.Table
import ModularNetServer.Db.SqlConnPool

/-!
# Transactions and statements

`SqlTransaction` (`sql_transaction.cpp`) and what `SqlExecutor` (`sql_executor.cpp`) does for a statement
that inserts a row, over a table that the connections share. Every call of MySQL that can fail is told
whether it succeeds; one that fails has no effect.
-/

namespace ModularNetServer

open Cxx

/-- A parameter of a statement, as `bindParam` binds it; `null` is a `MYSQL_BIND` that was only resized. -/
inductive SqlParam
  | null
  | text (value : Str)
  | int (value : Int)
  deriving DecidableEq

/-- A row: the values of the columns. -/
abbrev SqlRow := List SqlParam

/-- The committed rows, and for each connection with an open transaction the rows inserted in it. -/
structure Database where
  committed : List SqlRow
  pending : Table Nat (List SqlRow)

namespace Database

/-- `START TRANSACTION`, which commits a transaction that is still open. -/
def startTransaction (db : Database) (conn : Nat) : Database where
  committed := db.committed ++ (db.pending conn).getD []
  pending := db.pending.insert conn []

/-- A row is inserted: in the open transaction or, without one, for good. -/
def insertRow (db : Database) (conn : Nat) (row : SqlRow) : Database :=
  match db.pending conn with
  | none => { db with committed := db.committed ++ [row] }
  | some rows => { db with pending := db.pending.insert conn (rows ++ [row]) }

/-- `COMMIT`. -/
def commit (db : Database) (conn : Nat) : Database where
  committed := db.committed ++ (db.pending conn).getD []
  pending := db.pending.erase conn

/-- `ROLLBACK`. -/
def rollback (db : Database) (conn : Nat) : Database := { db with pending := db.pending.erase conn }

/-- No connection has an open transaction. -/
def Settled (db : Database) : Prop := ∀ conn, db.pending conn = none

end Database

/-- The pool of connections, the database, and the number of statements that are open. -/
structure SqlServer where
  pool : SqlConnPool
  db : Database
  statements : Nat

/-- Which calls of MySQL succeed. -/
structure SqlOutcomes where
  start : Bool
  stmtInit : Bool
  prepare : Bool
  bindParam : Bool
  execute : Bool
  commit : Bool

namespace SqlConnRAII

/-- The constructor for a pointer: it waits until there is a connection. -/
def make : Prog SqlServer Exception Nat := fun s =>
  match s.pool.getConn with
  | none => none
  | some (conn, pool) => some (.ok conn, { s with pool := pool })

/-- The destructor. -/
def drop (conn : Nat) (s : SqlServer) : SqlServer := { s with pool := s.pool.releaseConn conn }

end SqlConnRAII

/-- `SqlTransaction`. -/
structure SqlTransaction where
  conn : Nat
  committed : Bool

namespace SqlTransaction

/-- The constructor, with `begin`. -/
def make (o : SqlOutcomes) (conn : Nat) : Prog SqlServer Exception SqlTransaction :=
  if o.start then do
    Prog.modify fun s => { s with db := s.db.startTransaction conn }
    pure ⟨conn, false⟩
  else Prog.throw (.runtimeError (str "START TRANSACTION failed"))

/-- `commit`. -/
def commit (o : SqlOutcomes) : Prog (SqlServer × SqlTransaction) Exception Unit :=
  if o.commit then
    Prog.modify fun (s, tx) => ({ s with db := s.db.commit tx.conn }, { tx with committed := true })
  else Prog.throw (.runtimeError (str "COMMIT failed"))

/-- `rollback`, which the destructor calls. -/
def rollback (tx : SqlTransaction) (s : SqlServer) : SqlServer :=
  if tx.committed then s else { s with db := s.db.rollback tx.conn }

end SqlTransaction

/-- `SqlExecutor`, with the number of parameters of the statement that is prepared. -/
structure SqlExecutor where
  paramCount : Nat
  bindParams : List SqlParam

namespace SqlExecutor

/-- The constructor. -/
def make (o : SqlOutcomes) : Prog SqlServer Exception SqlExecutor :=
  if o.stmtInit then do
    Prog.modify fun s => { s with statements := s.statements + 1 }
    pure ⟨0, []⟩
  else Prog.throw (.runtimeError (str "Failed to init statement."))

/-- The destructor, which closes the statement. -/
def drop (s : SqlServer) : SqlServer := { s with statements := s.statements - 1 }

/-- `prepare`: a statement has a parameter for each question mark. -/
def prepare (o : SqlOutcomes) (exec : SqlExecutor) (sql : Str) : Bool × SqlExecutor :=
  if o.prepare then (true, { exec with paramCount := sql.count 63 }) else (false, exec)

/-- `bindParam`: the parameters are resized if there are too few. -/
def bindParam (exec : SqlExecutor) (index : Nat) (param : SqlParam) : SqlExecutor :=
  let params := exec.bindParams ++ List.replicate (index + 1 - exec.bindParams.length) .null
  { exec with bindParams := params.set index param }

/-- `execute`, for a statement that inserts the parameters as a row. -/
def execute (o : SqlOutcomes) (exec : SqlExecutor) (conn : Nat) : Prog SqlServer Exception Bool :=
  if exec.bindParams ≠ [] ∧ exec.bindParams.length ≠ exec.paramCount then pure false
  else if exec.bindParams ≠ [] ∧ o.bindParam = false then pure false
  else if o.execute then do
    Prog.modify fun s => { s with db := s.db.insertRow conn exec.bindParams }
    pure true
  else pure false

end SqlExecutor

end ModularNetServer
