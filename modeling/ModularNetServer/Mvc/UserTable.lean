import ModularNetServer.Db.FetchAll
import ModularNetServer.Db.SqlTransaction
import ModularNetServer.Mvc.Controllers

/-!
# Checking a user

`UserDao::checkUser` (`user_dao.cpp`) with its statement object and the table that it reads, where the
controllers see only the rows that it fetches.
-/

namespace ModularNetServer

open Cxx

/-- The table `user`: the password of each user, `none` for NULL. -/
structure UserTable where
  password : Table Str (Option Str)
  fits : ∀ username text, password username = some (some text) → text.length ≤ bufferLength

/-- What the statement of `checkUser` finds with the parameters that are bound to it. -/
def UserTable.select (table : UserTable) (params : List SqlParam) : ResultSet where
  columnNames := [str "password"]
  rows :=
    match params with
    | [.text username] => (table.password username).toList.map fun password => [password]
    | _ => []
  nodup := by decide
  width := by
    intro row hrow
    split at hrow
    · obtain ⟨password, -, rfl⟩ := List.mem_map.mp hrow
      rfl
    · cases hrow

/-- `SqlExecutor::execute` for a statement that changes nothing. -/
def SqlExecutor.executeQuery (o : SqlOutcomes) (exec : SqlExecutor) : Bool :=
  if exec.bindParams ≠ [] ∧ exec.bindParams.length ≠ exec.paramCount then false
  else if exec.bindParams ≠ [] ∧ o.bindParam = false then false
  else o.execute

namespace UserDao

/-- `checkUser` on a connection to a server with the table; `heap` is the memory of `fetchAll`. -/
def checkUserOn (o : SqlOutcomes) (f : FetchOutcomes) (heap : Nat → Nat → UInt8) (table : UserTable)
    (username password : Str) : Except Exception Bool :=
  if o.stmtInit = false then .error (.runtimeError (str "Failed to init statement."))
  else
    match SqlExecutor.prepare o ⟨0, []⟩ selectPassword with
    | (false, _) => .ok false
    | (true, exec) =>
      let exec := exec.bindParam 0 (.text username)
      if exec.executeQuery o = false then .ok false
      else
        match (SqlExecutor.fetchAll f heap (table.select exec.bindParams)).1 with
        | [] => .ok false
        | row :: _ => .ok (decide ((row (str "password")).getD [] = password))

/-- No call of MySQL fails. -/
structure Succeeds (o : SqlOutcomes) (f : FetchOutcomes) (table : UserTable) (username : Str) : Prop where
  stmtInit : o.stmtInit = true
  prepare : o.prepare = true
  bindParam : o.bindParam = true
  execute : o.execute = true
  fetchAll : f.Succeed (table.select [.text username]).rows.length

end UserDao

end ModularNetServer
