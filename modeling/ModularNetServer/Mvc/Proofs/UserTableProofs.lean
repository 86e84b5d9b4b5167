import ModularNetServer.Db.Proofs.FetchAllProofs
import ModularNetServer.Mvc.UserTable

/-!
# Which passwords are accepted

`fetchAll` hands a NULL on as the text `NULL`, which is a password like any other.
-/

namespace ModularNetServer

open Cxx

/-! ## What is fetched -/

/-- What a row gets for a value that fits its buffer. -/
theorem ColumnBind.entry_store (name : Str) (b : ColumnBind) {value : Option Str}
    (h : ∀ text ∈ value, text.length ≤ bufferLength) :
    (b.store value).entry name = (name, value.getD (str "NULL")) := by
  cases value with
  | none => rfl
  | some text =>
    unfold entry
    rw [text_store b (h text rfl)]
    rfl

namespace UserTable

theorem select_rows (table : UserTable) (username : Str) :
    (table.select [.text username]).rows = (table.password username).toList.map fun password => [password] :=
  rfl

/-- The rows that are fetched for a user. -/
theorem fetchAll_select {f : FetchOutcomes} {table : UserTable} {username : Str}
    (h : f.Succeed (table.select [.text username]).rows.length) (heap : Nat → Nat → UInt8) :
    (SqlExecutor.fetchAll f heap (table.select [.text username])).1 =
      (table.password username).toList.map fun password =>
        Table.ofList [(str "password", password.getD (str "NULL"))] := by
  unfold SqlExecutor.fetchAll
  dsimp only
  rw [if_neg (by simp [h.storeResult]), if_neg (by simp [h.resultMetadata]), if_neg (by simp [h.bindResult])]
  rw [select_rows] at h ⊢
  cases hpassword : table.password username with
  | none => rfl
  | some password =>
    rw [hpassword] at h
    have hfits : ∀ text ∈ password, text.length ≤ bufferLength := by
      rintro text htext
      exact table.fits username text (by rw [hpassword, htext])
    have hfetch : f.fetch 0 = true := h.fetch 0 (by simp)
    have hzip : List.zipWith ColumnBind.entry [str "password"]
        (List.zipWith ColumnBind.store [⟨heap 0, false, 0⟩] [password]) =
          [(str "password", password.getD (str "NULL"))] := by
      simp only [List.zipWith_cons_cons, List.zipWith_nil_left, ColumnBind.entry_store _ _ hfits]
    simp only [Option.toList_some, List.map_cons, List.map_nil]
    rw [SqlExecutor.fetchLoop_cons, if_pos hfetch]
    exact congrArg (fun entries => [Table.ofList entries]) hzip

end UserTable

namespace UserDao

/-! ## The answer -/

/-- The steps of `checkUser`: one parameter is bound, which is what its statement expects. -/
theorem checkUserOn_steps (o : SqlOutcomes) (f : FetchOutcomes) (heap : Nat → Nat → UInt8) (table : UserTable)
    (username password : Str) :
    checkUserOn o f heap table username password =
      if o.stmtInit = false then .error (.runtimeError (str "Failed to init statement."))
      else if o.prepare = false then .ok false
      else if (o.bindParam && o.execute) = false then .ok false
      else
        match (SqlExecutor.fetchAll f heap (table.select [.text username])).1 with
        | [] => .ok false
        | row :: _ => .ok (decide ((row (str "password")).getD [] = password)) := by
  have hbound : (SqlExecutor.bindParam ⟨selectPassword.count 63, []⟩ 0 (.text username)).bindParams =
      [.text username] := rfl
  have hexec : (SqlExecutor.bindParam ⟨selectPassword.count 63, []⟩ 0 (.text username)).executeQuery o =
      (o.bindParam && o.execute) := by
    have hcount : selectPassword.count 63 = 1 := by decide
    cases hb : o.bindParam <;> simp [SqlExecutor.executeQuery, SqlExecutor.bindParam, hcount, hb]
  unfold checkUserOn SqlExecutor.prepare
  cases hprepare : o.prepare with
  | false => simp
  | true =>
    cases hrows : (SqlExecutor.fetchAll f heap (table.select [.text username])).1 with
    | nil => simp [hexec, hbound, hrows]
    | cons row rows => simp [hexec, hbound, hrows]

/-- The answer of `checkUser` when no call fails. -/
theorem checkUserOn_eq {o : SqlOutcomes} {f : FetchOutcomes} {table : UserTable} {username : Str}
    (h : Succeeds o f table username) (heap : Nat → Nat → UInt8) (password : Str) :
    checkUserOn o f heap table username password =
      match table.password username with
      | none => .ok false
      | some stored => .ok (decide (stored.getD (str "NULL") = password)) := by
  rw [checkUserOn_steps, if_neg (by simp [h.stmtInit]), if_neg (by simp [h.prepare]),
    if_neg (by simp [h.bindParam, h.execute]), UserTable.fetchAll_select h.fetchAll heap]
  cases table.password username with
  | none => rfl
  | some stored => simp [Table.ofList]

/-- `checkUser` accepts exactly the password of the user, unless that is NULL and the given one is the text
    `NULL`. -/
theorem checkUserOn_iff {o : SqlOutcomes} {f : FetchOutcomes} {table : UserTable} {username : Str}
    (h : Succeeds o f table username) (heap : Nat → Nat → UInt8) (password : Str) :
    (checkUserOn o f heap table username password = .ok true ↔ table.password username = some (some password)) ↔
      ¬ (table.password username = some none ∧ password = str "NULL") := by
  rw [checkUserOn_eq h]
  cases table.password username with
  | none => simp
  | some stored =>
    cases stored with
    | none => simp [eq_comm]
    | some text => simp

/-- A user without a password. -/
def withoutPassword : UserTable where
  password := Table.empty.insert (str "bob") none
  fits := by
    intro username text h
    rw [Table.insert_apply] at h
    split_ifs at h <;> cases h

/-- A server on which every call succeeds. -/
def sqlSucceeds : SqlOutcomes := ⟨true, true, true, true, true, true⟩

theorem withoutPassword_succeeds (username : Str) :
    Succeeds sqlSucceeds SqlExecutor.fetchSucceeds withoutPassword username :=
  ⟨rfl, rfl, rfl, rfl, rfl, rfl, rfl, fun _ _ => rfl⟩

theorem checkUserOn_iff_withoutPassword :
    (checkUserOn sqlSucceeds SqlExecutor.fetchSucceeds (fun _ _ => 0) withoutPassword (str "bob") (str "secret") =
        .ok true ↔ withoutPassword.password (str "bob") = some (some (str "secret"))) ↔
      ¬ (withoutPassword.password (str "bob") = some none ∧ str "secret" = str "NULL") :=
  checkUserOn_iff (withoutPassword_succeeds (str "bob")) (fun _ _ => 0) (str "secret")

/-- A user whose password is NULL logs in with the text `NULL`. -/
theorem null_password_accepted :
    Succeeds sqlSucceeds SqlExecutor.fetchSucceeds withoutPassword (str "bob") ∧
      checkUserOn sqlSucceeds SqlExecutor.fetchSucceeds (fun _ _ => 0) withoutPassword (str "bob") (str "NULL") =
        .ok true ∧
      withoutPassword.password (str "bob") ≠ some (some (str "NULL")) := by
  refine ⟨withoutPassword_succeeds _, ?_, ?_⟩
  · rw [checkUserOn_eq (withoutPassword_succeeds _)]
    rfl
  · simp [withoutPassword]

/-! ## What the controllers see -/

/-- The answer of a database with the table to the statement of `checkUser`. -/
def answerOf (o : SqlOutcomes) (f : FetchOutcomes) (heap : Nat → Nat → UInt8) (table : UserTable)
    (username : Str) : QueryAnswer where
  startTransaction := o.start
  stmtInit := o.stmtInit
  prepare := o.prepare
  execute := o.bindParam && o.execute
  query := true
  commit := o.commit
  rows := (SqlExecutor.fetchAll f heap (table.select [.text username])).1

/-- `checkUser` answers the controllers as it does on the table. -/
theorem checkUser_eq_checkUserOn {w : World} {o : SqlOutcomes} {f : FetchOutcomes} {heap : Nat → Nat → UInt8}
    {table : UserTable} {username : Str}
    (h : (w.query selectPassword [username]).1 = answerOf o f heap table username) (password : Str) :
    checkUser w username password =
      match checkUserOn o f heap table username password with
      | .error e => .error (.std e)
      | .ok accepted => .ok (accepted, (w.query selectPassword [username]).2) := by
  rw [checkUserOn_steps]
  unfold checkUser
  generalize w.query selectPassword [username] = r at h
  obtain ⟨answer, w'⟩ := r
  obtain rfl : answer = answerOf o f heap table username := h
  simp only [answerOf]
  by_cases hstmt : o.stmtInit = true
  · by_cases hprepare : o.prepare = true
    · by_cases hexec : (o.bindParam && o.execute) = true
      · simp only [hstmt, hprepare, hexec, Bool.not_true, Bool.false_eq_true, if_false, Bool.true_eq_false]
        cases (SqlExecutor.fetchAll f heap (table.select [.text username])).1 <;> rfl
      · rw [Bool.not_eq_true] at hexec
        simp [hstmt, hprepare, hexec]
    · simp [hstmt, hprepare]
  · simp [hstmt]

end UserDao

end ModularNetServer
