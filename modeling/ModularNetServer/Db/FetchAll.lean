import Mathlib.Data.List.Forall2
import ModularNetServer.Library.CxxText
import ModularNetServer.Library.Table

/-!
# Fetching a result set

`SqlExecutor::fetchAll` (`sql_executor.cpp`). Each column has a buffer of 1024 bytes, which
`mysql_stmt_fetch` fills as far as it goes, and the length that the value has in the table.
-/

namespace ModularNetServer

open Cxx

/-- A row of a result set: the texts of its columns, `none` for NULL. -/
abbrev FetchedRow := List (Option Str)

/-- A result set whose columns have different names. -/
structure ResultSet where
  columnNames : List Str
  rows : List FetchedRow
  nodup : columnNames.Nodup
  width : ∀ row ∈ rows, row.length = columnNames.length

/-- Which calls of MySQL succeed; `fetch` tells it for each call of `mysql_stmt_fetch`. -/
structure FetchOutcomes where
  storeResult : Bool
  resultMetadata : Bool
  bindResult : Bool
  fetch : Nat → Bool

/-- What `mysql_stmt_fetch` returns while there is a row: 0, 1 or `MYSQL_DATA_TRUNCATED`. -/
inductive FetchCode
  | success
  | error
  | dataTruncated
  deriving DecidableEq

/-- The size of a buffer. -/
def bufferLength : Nat := 1024

/-- `MYSQL_BIND` of a column: the heap from the start of its buffer on, `is_null` and `length`. -/
structure ColumnBind where
  memory : Nat → UInt8
  isNull : Bool
  length : Nat

namespace ColumnBind

/-- A value is stored: at most the buffer is written, the length is that of the whole value. -/
def store (b : ColumnBind) : Option Str → ColumnBind
  | none => { b with isNull := true }
  | some value =>
    { memory := fun j =>
        if j < bufferLength then (value[j]?).getD (b.memory j) else b.memory j
      isNull := false
      length := value.length }

/-- `std::string(buffer, length)`. -/
def text (b : ColumnBind) : Str := (List.range b.length).map b.memory

/-- What the row gets for the column. -/
def entry (name : Str) (b : ColumnBind) : Str × Str := (name, if b.isNull then str "NULL" else b.text)

/-- How far the buffer is read for it. -/
def reads (b : ColumnBind) : Nat := if b.isNull then 0 else b.length

end ColumnBind

namespace SqlExecutor

/-- `mysql_stmt_fetch` for a row. -/
def stmtFetch (ok : Bool) (row : FetchedRow) : FetchCode :=
  if ok = false then .error
  else if ∀ value ∈ row, ∀ text ∈ value, text.length ≤ bufferLength then .success
  else .dataTruncated

/-- The loop over the rows: the rows that it returns, and how far the buffers are read. -/
def fetchLoop (o : FetchOutcomes) (columnNames : List Str) :
    Nat → List FetchedRow → List ColumnBind → List (Table Str Str) × List Nat
  -- `MYSQL_NO_DATA`, or an error
  | _, [], _ => ([], [])
  | n, row :: rows, binds =>
    match stmtFetch (o.fetch n) row with
    | .error => ([], [])
    -- `MYSQL_DATA_TRUNCATED` is treated like success
    | _ =>
      let binds := List.zipWith ColumnBind.store binds row
      let (results, reads) := fetchLoop o columnNames (n + 1) rows binds
      (Table.ofList (List.zipWith ColumnBind.entry columnNames binds) :: results,
        binds.map ColumnBind.reads ++ reads)

/-- `fetchAll`; `heap` is what is in the memory from the start of each buffer on. -/
def fetchAll (o : FetchOutcomes) (heap : Nat → Nat → UInt8) (set : ResultSet) :
    List (Table Str Str) × List Nat :=
  if o.storeResult = false then ([], [])
  else if o.resultMetadata = false then ([], [])
  else
    let binds := (List.range set.columnNames.length).map fun i => ⟨heap i, false, 0⟩
    if o.bindResult = false then ([], [])
    else fetchLoop o set.columnNames 0 set.rows binds

end SqlExecutor

/-! ## What callers rely on -/

/-- A returned row has the values of the stored one that are not NULL, and no other columns. -/
structure RowExact (columnNames : List Str) (stored : FetchedRow) (row : Table Str Str) : Prop where
  values : ∀ name value, (name, some value) ∈ columnNames.zip stored → row name = some value
  names : ∀ name, (row name).isSome = true → name ∈ columnNames

/-- No byte is read outside a buffer, and the rows that are returned are the stored ones. -/
def FetchesExactly (set : ResultSet) (fetched : List (Table Str Str) × List Nat) : Prop :=
  (∀ n ∈ fetched.2, n ≤ bufferLength) ∧ List.Forall₂ (RowExact set.columnNames) set.rows fetched.1

/-- No value of the row is longer than a buffer. -/
def RowFits (row : FetchedRow) : Prop := ∀ value, some value ∈ row → value.length ≤ bufferLength

/-- No call fails before the last row is fetched. -/
structure FetchOutcomes.Succeed (o : FetchOutcomes) (rows : Nat) : Prop where
  storeResult : o.storeResult = true
  resultMetadata : o.resultMetadata = true
  bindResult : o.bindResult = true
  fetch : ∀ n < rows, o.fetch n = true

end ModularNetServer
