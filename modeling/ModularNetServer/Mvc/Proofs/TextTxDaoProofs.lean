import ModularNetServer.Mvc.TextTxDao

/-!
# A call of `insertUser` is a transaction

Inside the scope of the transaction object the rows of the call are pending. `commit` makes them permanent
and tells the destructor so; in every other case the destructor undoes them. Either way the connection has
no open transaction when its own destructor returns it.
-/

namespace ModularNetServer

open Cxx Prog

/-! ## The table -/

namespace Database

variable {db : Database} {conn : Nat}

/-- Only the connection has an open transaction, with the given rows. -/
structure InTransaction (db : Database) (table : List SqlRow) (conn : Nat) (rows : List SqlRow) : Prop where
  committed : db.committed = table
  pending : db.pending conn = some rows
  others : ∀ c, c ≠ conn → db.pending c = none

theorem inTransaction_start (h : db.Settled) (conn : Nat) :
    (db.startTransaction conn).InTransaction db.committed conn [] where
  committed := by simp [startTransaction, h conn]
  pending := Table.insert_self _ _ _
  others := fun c hc => (Table.insert_of_ne _ hc _).trans (h c)

variable {table rows : List SqlRow}

theorem InTransaction.insertRow (h : db.InTransaction table conn rows) (row : SqlRow) :
    (db.insertRow conn row).InTransaction table conn (rows ++ [row]) := by
  unfold Database.insertRow
  rw [h.pending]
  exact ⟨h.committed, Table.insert_self _ _ _, fun c hc => (Table.insert_of_ne _ hc _).trans (h.others c hc)⟩

theorem settled_erase (h : db.InTransaction table conn rows) (c : Nat) : db.pending.erase conn c = none := by
  by_cases hc : c = conn
  · rw [hc, Table.erase_self]
  · rw [Table.erase_of_ne _ hc, h.others c hc]

theorem InTransaction.commit (h : db.InTransaction table conn rows) :
    (db.commit conn).Settled ∧ (db.commit conn).committed = table ++ rows := by
  refine ⟨settled_erase h, ?_⟩
  simp [Database.commit, h.committed, h.pending]

theorem InTransaction.rollback (h : db.InTransaction table conn rows) :
    (db.rollback conn).Settled ∧ (db.rollback conn).committed = table :=
  ⟨settled_erase h, h.committed⟩

end Database

namespace TextTxDao

variable {o : SqlOutcomes} {username : Str} {age : Int} {conn : Nat} {table rows : List SqlRow}

/-! ## The parts of a call -/

/-- The pool and the statements that are open are as given. -/
structure Rest (s : SqlServer) (pool : SqlConnPool) (statements : Nat) : Prop where
  pool : s.pool = pool
  statements : s.statements = statements

/-- Inside the scope of the transaction object, while nothing is committed. -/
structure Uncommitted (table : List SqlRow) (conn : Nat) (pool : SqlConnPool) (statements : Nat)
    (s : SqlServer × SqlTransaction) : Prop where
  rest : Rest s.1 pool statements
  db : ∃ rows, s.1.db.InTransaction table conn rows
  tx : s.2 = ⟨conn, false⟩

/-- At the end of that scope: the row is committed if the call returns true, and nothing otherwise. -/
def Ended (table : List SqlRow) (username : Str) (age : Int) (conn : Nat) (pool : SqlConnPool)
    (statements : Nat) (r : Except Exception Bool) (s : SqlServer × SqlTransaction) : Prop :=
  (r = .ok true ∧ Rest s.1 pool statements ∧ s.2.committed = true ∧ s.1.db.Settled ∧
      s.1.db.committed = table ++ [userRow username age]) ∨
    (r ≠ .ok true ∧ Uncommitted table conn pool statements s)

variable {pool : SqlConnPool} {statements : Nat}

theorem execute_triple (exec : SqlExecutor) :
    Triple (fun s => Rest s pool statements ∧ s.db.InTransaction table conn [])
      (exec.execute o conn)
      (fun r s => Rest s pool statements ∧
        (r = .ok true → s.db.InTransaction table conn [exec.bindParams]) ∧
        ∃ rows, s.db.InTransaction table conn rows) := by
  unfold SqlExecutor.execute
  refine Triple.ite (fun _ => Triple.ret ?_) fun _ => Triple.ite (fun _ => Triple.ret ?_) fun _ =>
    Triple.ite (fun _ => ?_) fun _ => Triple.ret ?_
  · rintro s ⟨hrest, hdb⟩
    exact ⟨hrest, by simp, [], hdb⟩
  · rintro s ⟨hrest, hdb⟩
    exact ⟨hrest, by simp, [], hdb⟩
  · refine Triple.modify_andThen
      (R := fun s => Rest s pool statements ∧ s.db.InTransaction table conn [exec.bindParams]) ?_
      (Triple.ret ?_)
    · rintro s ⟨hrest, hdb⟩
      exact ⟨⟨hrest.pool, hrest.statements⟩, hdb.insertRow exec.bindParams⟩
    · rintro s ⟨hrest, hdb⟩
      exact ⟨hrest, fun _ => hdb, _, hdb⟩
  · rintro s ⟨hrest, hdb⟩
    exact ⟨hrest, by simp, [], hdb⟩

theorem commit_triple :
    Triple (fun s => Rest s.1 pool statements ∧ s.1.db.InTransaction table conn [userRow username age] ∧
        s.2 = ⟨conn, false⟩)
      (SqlTransaction.commit o >>= fun _ => pure true)
      (Ended table username age conn pool statements) := by
  unfold SqlTransaction.commit
  refine Triple.andThen
    (R := fun r s => (r = .ok () → Ended table username age conn pool statements (.ok true) s) ∧
      (r ≠ .ok () → Uncommitted table conn pool statements s))
    (Triple.ite (fun _ => Triple.modify ?_) fun _ => Triple.throw ?_) (fun _ => Triple.ret ?_) ?_
  · rintro ⟨s, tx⟩ ⟨hrest, hdb, rfl⟩
    refine ⟨fun _ => .inl ⟨rfl, ⟨hrest.pool, hrest.statements⟩, rfl, hdb.commit⟩, by simp⟩
  · rintro s ⟨hrest, hdb, htx⟩
    exact ⟨by simp, fun _ => ⟨hrest, ⟨_, hdb⟩, htx⟩⟩
  · rintro s ⟨hended, -⟩
    exact hended rfl
  · rintro e s ⟨-, hopen⟩
    exact .inr ⟨by simp, hopen (by simp)⟩

/-- The statement has two parameters, and both are bound. -/
theorem bindParam_bindParam (username : Str) (age : Int) (n : Nat) :
    ((SqlExecutor.mk n []).bindParam 0 (.text username)).bindParam 1 (.int age) =
      ⟨n, userRow username age⟩ := rfl

/-- From `prepare` on, a call commits its row or returns something else than true. -/
theorem insertRow_triple :
    Triple (fun s => Rest s.1 pool statements ∧ s.1.db.InTransaction table conn [] ∧ s.2 = ⟨conn, false⟩)
      (insertRow o username age conn ⟨0, []⟩) (Ended table username age conn pool statements) := by
  have hopen : ∀ s : SqlServer × SqlTransaction, Rest s.1 pool statements →
      (∃ rows, s.1.db.InTransaction table conn rows) → s.2 = ⟨conn, false⟩ →
        Ended table username age conn pool statements (.ok false) s :=
    fun s hrest hdb htx => .inr ⟨by simp, hrest, hdb, htx⟩
  unfold insertRow SqlExecutor.prepare
  cases o.prepare with
  | false => exact Triple.ret fun s hs => hopen s hs.1 ⟨_, hs.2.1⟩ hs.2.2
  | true =>
    simp only [if_true, bindParam_bindParam]
    refine Triple.andThen
      (R := fun r s => (Rest s.1 pool statements ∧
          (r = .ok true → s.1.db.InTransaction table conn [userRow username age]) ∧
          ∃ rows, s.1.db.InTransaction table conn rows) ∧ s.2 = ⟨conn, false⟩)
      ((Triple.lift (I := fun tx => tx = ⟨conn, false⟩) (execute_triple _)).weaken ?_ fun r s hs => hs)
      (fun executed => ?_) ?_
    · rintro s ⟨hrest, hdb, htx⟩
      exact ⟨⟨hrest, hdb⟩, htx⟩
    · cases executed with
      | false =>
        rw [if_pos rfl]
        exact Triple.ret fun s hs => hopen s hs.1.1 hs.1.2.2 hs.2
      | true =>
        rw [if_neg (by decide)]
        refine Triple.ite (fun _ => Triple.ret fun s hs => hopen s hs.1.1 hs.1.2.2 hs.2) fun _ => ?_
        exact commit_triple.weaken (fun s hs => ⟨hs.1.1, hs.1.2.1 rfl, hs.2⟩) fun r s hs => hs
    · rintro e s ⟨⟨hrest, -, hdb⟩, htx⟩
      exact .inr ⟨by simp, hrest, hdb, htx⟩

/-! ## The scopes -/

theorem executor_make_triple :
    Triple (fun s => Rest s pool statements ∧ s.db.InTransaction table conn []) (SqlExecutor.make o)
      (fun r s => (∀ exec, r = .ok exec → exec = ⟨0, []⟩ ∧ Rest s pool (statements + 1)) ∧
        (∀ e, r = .error e → Rest s pool statements) ∧ s.db.InTransaction table conn []) := by
  unfold SqlExecutor.make
  refine Triple.ite (fun _ => ?_) fun _ => Triple.throw ?_
  · refine Triple.modify_andThen
      (R := fun s => Rest s pool (statements + 1) ∧ s.db.InTransaction table conn []) ?_ (Triple.ret ?_)
    · rintro s ⟨hrest, hdb⟩
      exact ⟨⟨hrest.pool, congrArg (· + 1) hrest.statements⟩, hdb⟩
    · rintro s ⟨hrest, hdb⟩
      exact ⟨fun exec hexec => ⟨(Except.ok.inj hexec).symm, hrest⟩, by simp, hdb⟩
  · rintro s ⟨hrest, hdb⟩
    exact ⟨by simp, fun _ _ => hrest, hdb⟩

/-- The destructor of the statement keeps how the scope of the transaction ends. -/
theorem Ended.drop {r : Except Exception Bool} {s : SqlServer} {tx : SqlTransaction}
    (h : Ended table username age conn pool (statements + 1) r (s, tx)) :
    Ended table username age conn pool statements r (SqlExecutor.drop s, tx) := by
  have hdrop : Rest s pool (statements + 1) → Rest (SqlExecutor.drop s) pool statements :=
    fun hrest => ⟨hrest.pool, congrArg (· - 1) hrest.statements⟩
  rcases h with ⟨hr, hrest, hdb⟩ | ⟨hr, hrest, hdb, htx⟩
  · exact .inl ⟨hr, hdrop hrest, hdb⟩
  · exact .inr ⟨hr, hdrop hrest, hdb, htx⟩

/-- The scope of the statement. -/
theorem executor_triple :
    Triple (fun s => Rest s.1 pool statements ∧ s.1.db.InTransaction table conn [] ∧ s.2 = ⟨conn, false⟩)
      (Prog.withFixed (Prog.lift (SqlExecutor.make o)) (fun _ s => (SqlExecutor.drop s.1, s.2))
        fun exec => insertRow o username age conn exec)
      (Ended table username age conn pool statements) := by
  have hmake := @Triple.lift _ _ _ _ _ _ _ (fun tx => tx = SqlTransaction.mk conn false)
    (@executor_make_triple o conn table pool statements)
  refine Triple.withFixed (B := fun _ r s => Ended table username age conn pool (statements + 1) r s)
    (hmake.weaken (fun s hs => ⟨⟨hs.1, hs.2.1⟩, hs.2.2⟩) fun r s hs => hs) (fun exec => ?_)
    (fun r s _ hended => hended.drop) ?_
  · rintro s ⟨⟨hok, -, hdb⟩, htx⟩
    obtain ⟨rfl, hrest⟩ := hok exec rfl
    exact insertRow_triple s ⟨hrest, hdb, htx⟩
  · rintro e s ⟨⟨-, herror, hdb⟩, htx⟩
    exact .inr ⟨by simp, herror e rfl, ⟨_, hdb⟩, htx⟩

/-- Where no transaction is open. -/
structure Settled (table : List SqlRow) (pool : SqlConnPool) (statements : Nat) (s : SqlServer) : Prop where
  rest : Rest s pool statements
  db : s.db.Settled
  committed : s.db.committed = table

theorem transaction_make_triple :
    Triple (Settled table pool statements) (SqlTransaction.make o conn)
      (fun r s => (∀ tx, r = .ok tx →
          Rest s pool statements ∧ s.db.InTransaction table conn [] ∧ tx = ⟨conn, false⟩) ∧
        ∀ e, r = .error e → Settled table pool statements s) := by
  unfold SqlTransaction.make
  refine Triple.ite (fun _ => ?_) fun _ => Triple.throw ?_
  · refine Triple.modify_andThen
      (R := fun s => Rest s pool statements ∧ s.db.InTransaction table conn []) ?_ (Triple.ret ?_)
    · intro s hs
      have hstart := Database.inTransaction_start hs.db conn
      rw [hs.committed] at hstart
      exact ⟨⟨hs.rest.pool, hs.rest.statements⟩, hstart⟩
    · rintro s ⟨hrest, hdb⟩
      exact ⟨fun tx htx => ⟨hrest, hdb, (Except.ok.inj htx).symm⟩, by simp⟩
  · intro s hs
    exact ⟨by simp, fun _ _ => hs⟩

theorem rowsOf_eq_nil {r : Except Exception Bool} (h : r ≠ .ok true) : Calls.rowsOf username age r = [] := by
  unfold Calls.rowsOf
  split
  · exact absurd rfl h
  · rfl

/-- The destructor of the transaction object undoes what is not committed. -/
theorem Ended.rollback {r : Except Exception Bool} {s : SqlServer} {tx : SqlTransaction}
    (h : Ended table username age conn pool statements r (s, tx)) :
    Settled (table ++ Calls.rowsOf username age r) pool statements (tx.rollback s) := by
  unfold SqlTransaction.rollback
  rcases h with ⟨rfl, hrest, hcommitted, hdb, htable⟩ | ⟨hr, hrest, ⟨rows, hdb⟩, htx⟩
  · rw [if_pos hcommitted]
    exact ⟨hrest, hdb, htable⟩
  · obtain rfl : tx = ⟨conn, false⟩ := htx
    rw [if_neg (by simp), rowsOf_eq_nil hr, List.append_nil]
    exact ⟨⟨hrest.pool, hrest.statements⟩, hdb.rollback.1, hdb.rollback.2⟩

/-- The scope of the transaction object: afterwards no transaction is open, and the row is in the table if
    and only if the call returns true. -/
theorem transaction_triple :
    Triple (Settled table pool statements)
      (Prog.withObject (SqlTransaction.make o conn) SqlTransaction.rollback <|
        Prog.withFixed (Prog.lift (SqlExecutor.make o)) (fun _ s => (SqlExecutor.drop s.1, s.2))
          fun exec => insertRow o username age conn exec)
      (fun r => Settled (table ++ Calls.rowsOf username age r) pool statements) := by
  refine Triple.withObject transaction_make_triple
    (executor_triple.weaken (fun s hs => hs.1 s.2 rfl) fun r s hs => hs) (fun r s tx hended => hended.rollback) ?_
  rintro e s ⟨-, herror⟩
  rw [rowsOf_eq_nil (by simp), List.append_nil]
  exact herror e rfl

/-- A call for which there is a connection ends; then it has returned the connection, with no open
    transaction, and has added its row to the table if and only if it returns true. -/
theorem insertUserOn_triple {queue : List Nat} {freeConn maxConn : Int} :
    Triple (Settled table ⟨conn :: queue, freeConn, maxConn⟩ statements) (insertUserOn o username age)
      (fun r => Settled (table ++ Calls.rowsOf username age r) ⟨queue ++ [conn], freeConn, maxConn⟩
        statements) := by
  unfold insertUserOn
  refine Triple.withFixed
    (R := fun r s => r = .ok conn ∧ Settled table ⟨queue, freeConn - 1, maxConn⟩ statements s)
    (B := fun c r s => c = conn ∧
      Settled (table ++ Calls.rowsOf username age r) ⟨queue, freeConn - 1, maxConn⟩ statements s)
    ?_ (fun c => ?_) ?_ ?_
  · intro s hs
    refine ⟨.ok conn, { s with pool := ⟨queue, freeConn - 1, maxConn⟩ }, ?_, rfl, ?_⟩
    · unfold SqlConnRAII.make SqlConnPool.getConn
      rw [hs.rest.pool]
    · exact ⟨⟨rfl, hs.rest.statements⟩, hs.db, hs.committed⟩
  · rintro s ⟨hc, hs⟩
    obtain rfl : c = conn := Except.ok.inj hc
    obtain ⟨r, s', hcall, hs'⟩ := transaction_triple s hs
    exact ⟨r, s', hcall, rfl, hs'⟩
  · rintro r s c ⟨rfl, hs⟩
    refine ⟨⟨?_, hs.rest.statements⟩, hs.db, hs.committed⟩
    unfold SqlConnRAII.drop SqlConnPool.releaseConn
    rw [hs.rest.pool]
    simp
  · rintro e s ⟨hc, -⟩
    cases hc

/-- Without a connection a call waits. -/
theorem insertUserOn_of_nil {s : SqlServer} (h : s.pool.connQueue = []) : insertUserOn o username age s = none := by
  unfold insertUserOn Prog.withFixed Prog.withObject SqlConnRAII.make SqlConnPool.getConn
  rw [h]

/-! ## Runs of calls -/

/-- What holds between the calls: every connection is in the pool. -/
structure Inv (connSize : Nat) (initial : List SqlRow) (c : Calls) : Prop where
  settled : c.server.db.Settled
  committed : c.server.db.committed = initial ++ c.returned
  queue : c.server.pool.connQueue.Perm (List.range connSize)

variable {connSize : Nat} {initial : List SqlRow} {c c' : Calls}

theorem Inv.start (connSize : Nat) (initial : List SqlRow) :
    Inv connSize initial (Calls.start connSize initial) where
  settled := fun _ => rfl
  committed := (List.append_nil _).symm
  queue := List.Perm.refl _

theorem Inv.step (h : Inv connSize initial c) {action : Action} (hr : c.step action = some c') :
    Inv connSize initial c' := by
  cases action with
  | reorder queue =>
    simp only [Calls.step] at hr
    split_ifs at hr with hperm
    cases hr
    exact ⟨h.settled, h.committed, (List.isPerm_iff.mp hperm).trans h.queue⟩
  | insertUser o username age =>
    simp only [Calls.step] at hr
    cases hqueue : c.server.pool.connQueue with
    | nil =>
      rw [insertUserOn_of_nil hqueue] at hr
      cases hr
    | cons conn queue =>
      have hpool : c.server.pool = ⟨conn :: queue, c.server.pool.freeConn, c.server.pool.maxConn⟩ := by
        rw [← hqueue]
      obtain ⟨r, s, hcall, hs⟩ := @insertUserOn_triple o username age conn _ _ queue _ _ c.server
        ⟨⟨hpool, rfl⟩, h.settled, h.committed⟩
      rw [hcall] at hr
      cases hr
      refine ⟨hs.db, ?_, ?_⟩
      · rw [← List.append_assoc]
        exact hs.committed
      · have hperm := h.queue
        rw [hqueue] at hperm
        rw [hs.rest.pool]
        exact (List.perm_append_singleton conn queue).trans hperm

/-- In every run the table has, besides the rows it had before, exactly those of the calls that have
    returned true, and all connections are in the pool with no open transaction. -/
theorem run_atomic (connSize : Nat) (table : List SqlRow) {actions : List Action} {c : Calls}
    (hr : Transition.run Calls.step (Calls.start connSize table) actions = some c) :
    c.server.db.committed = table ++ c.returned ∧
      c.server.pool.connQueue.Perm (List.range connSize) ∧ ∀ conn, c.server.db.pending conn = none := by
  have h : Inv connSize table c :=
    Transition.run_invariant_of_step (fun _ _ _ hi ha => hi.step ha) (Inv.start connSize table) hr
  exact ⟨h.committed, h.queue, h.settled⟩

/-- A server on which every call of MySQL succeeds. -/
def allSucceed : SqlOutcomes := ⟨true, true, true, true, true, true⟩

/-- Two connections: a user is inserted, two calls fail in `commit` and before it, and another user is
    inserted on the connection of the first failure. -/
def failures : List Action :=
  [.insertUser allSucceed (str "ann") 30, .insertUser { allSucceed with commit := false } (str "bob") 31,
    .insertUser allSucceed (str "rollback") 32, .reorder [1, 0], .insertUser allSucceed (str "eve") 33]

theorem run_atomic_failures :
    ∃ c, Transition.run Calls.step (Calls.start 2 []) failures = some c ∧
      c.returned = [userRow (str "ann") 30, userRow (str "eve") 33] ∧
      c.server.db.committed = c.returned ∧ ∀ conn, c.server.db.pending conn = none := by
  obtain ⟨hcommitted, -, hpending⟩ := @run_atomic 2 [] failures _ rfl
  exact ⟨_, rfl, rfl, hcommitted, hpending⟩

/-! ## What the controllers see -/

/-- The outcomes that the answer of a database stands for. -/
def outcomesOf (answer : QueryAnswer) : SqlOutcomes :=
  ⟨answer.startTransaction, answer.stmtInit, answer.prepare, true, answer.execute, answer.commit⟩

/-- A call ends as the controllers see it end. -/
theorem insertUser_eq_insertUserOn (w : World) {s : SqlServer} {queue : List Nat}
    (hs : s.pool.connQueue = conn :: queue) :
    ∃ r s', insertUserOn (outcomesOf (w.query insertStatement [username, Cxx.toString age]).1) username age s =
        some (r, s') ∧
      insertUser w username age =
        match r with
        | .error e => .error (.std e)
        | .ok inserted => .ok (inserted, (w.query insertStatement [username, Cxx.toString age]).2) := by
  unfold insertUser
  obtain ⟨answer, w'⟩ := w.query insertStatement [username, Cxx.toString age]
  obtain ⟨start, stmtInit, prepare, execute, query, commit, rows⟩ := answer
  obtain ⟨⟨connQueue, freeConn, maxConn⟩, db, statements⟩ := s
  obtain rfl : connQueue = conn :: queue := hs
  unfold insertUserOn insertRow
  cases start with
  | false => exact ⟨_, _, rfl, rfl⟩
  | true =>
    cases stmtInit with
    | false => exact ⟨_, _, rfl, rfl⟩
    | true =>
      cases prepare with
      | false => exact ⟨_, _, rfl, rfl⟩
      | true =>
        cases execute with
        | false => exact ⟨_, _, rfl, rfl⟩
        | true =>
          by_cases hname : username = str "rollback"
          · simp only [if_pos hname]
            exact ⟨_, _, rfl, rfl⟩
          · simp only [if_neg hname]
            cases commit with
            | false => exact ⟨_, _, rfl, rfl⟩
            | true => exact ⟨_, _, rfl, rfl⟩

end TextTxDao

end ModularNetServer
