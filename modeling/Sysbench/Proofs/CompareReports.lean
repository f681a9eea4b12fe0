/-
What the compare driver tells the layer above it: the class of an error, and the counter
that a statement belongs to.

`check_error` is not told which connection failed.  It looks at the first one that has a
handle and returns, so it reports the error only if that is where it happened.

`mysql_drv_execute` copies the counter of the first instance's result into `rs`, but nothing
has set it by then; and where it returns early it leaves `rs` alone, because `check_error`
has set the counter of a result that is about to be freed.  So the counter agrees with that
of the MySQL driver for statements of no class, and by chance.
-/
import Sysbench.Proofs.CompareLockstep

namespace Sysbench.Compare

open List Runs

variable {n : ℕ} {args : MysqlArgs} {reconnects : Bool} {answers : Fin (n + 1) → ExecAnswer}
  {connections : List (Option ℕ)}

/-! ### Errors -/

/-- The number is in `--mysql-ignore-errors`, or everything is. -/
def Ignored (args : MysqlArgs) (error : ℕ) : Prop :=
  ∃ v ∈ args.ignoredErrors, v.code = error ∨ v.all = true

/-- What `check_error` is to report for an error: the number, and whether it can be ignored.
A lost connection has to be made again for that. -/
structure Classified (args : MysqlArgs) (reconnects : Bool) (error : ℕ)
    (report : ℕ × DbError) : Prop where
  sqlErrno : report.1 = error
  ignorable : report.2 = .ignorable
    ↔ Ignored args error ∧ (error ∈ reconnectErrors → reconnects = true)
  fatal : report.2 ≠ .ignorable → report.2 = .fatal

theorem ignored_iff (args : MysqlArgs) (error : ℕ) :
    (args.ignoredErrors.any fun v => error == v.code || v.all) = true ↔ Ignored args error := by
  rw [any_eq_true]
  refine exists_congr fun v => and_congr_right fun _ => ?_
  rw [Bool.or_eq_true, beq_iff_eq, eq_comm]

theorem classified_verdict (args : MysqlArgs) (reconnects : Bool) (error : ℕ) :
    Classified args reconnects error (error, (verdict args reconnects error).1) := by
  have hignored := ignored_iff args error
  unfold verdict
  by_cases hignore : (args.ignoredErrors.any fun v => error == v.code || v.all) = true
  · rw [if_pos hignore]
    have hyes := hignored.mp hignore
    by_cases hlost : error ∈ reconnectErrors
    · rw [if_pos hlost]
      cases reconnects with
      | true => exact ⟨rfl, iff_of_true rfl ⟨hyes, fun _ => rfl⟩, fun h => absurd rfl h⟩
      | false =>
        refine ⟨rfl, iff_of_false ?_ ?_, fun _ => rfl⟩
        · exact nofun
        · exact fun h => (nomatch h.2 hlost)
    · rw [if_neg hlost]
      exact ⟨rfl, iff_of_true rfl ⟨hyes, fun h => absurd h hlost⟩, fun h => absurd rfl h⟩
  · rw [if_neg hignore]
    refine ⟨rfl, iff_of_false ?_ ?_, fun _ => rfl⟩
    · exact nofun
    · exact fun h => hignore (hignored.mpr h.1)

/-- The loop stops at the first handle. -/
theorem checkErrorLoop_of_none {sqlErrno : ℕ} {i error : ℕ}
    (hi : connections[i]? = some (some error)) (hfirst : ∀ j < i, connections[j]? = some none) :
    checkErrorLoop args reconnects sqlErrno connections
      = (error, (verdict args reconnects error).1) := by
  induction connections generalizing i with
  | nil => cases hi
  | cons connection connections ih =>
    cases i with
    | zero =>
      cases Option.some.inj hi
      rfl
    | succ i =>
      cases Option.some.inj (hfirst 0 (Nat.succ_pos i))
      exact ih hi fun j hj => hfirst (j + 1) (Nat.succ_lt_succ hj)

/-- It leaves 0 if it stops at a connection without an error. -/
theorem checkErrorLoop_of_some (args : MysqlArgs) (reconnects : Bool) (sqlErrno : ℕ)
    {j error : ℕ} (hj : connections[j]? = some (some error))
    (hzero : ∀ k ≤ j, ∀ e, connections[k]? = some (some e) → e = 0) :
    (checkErrorLoop args reconnects sqlErrno connections).1 = 0 := by
  induction connections generalizing j with
  | nil => cases hj
  | cons connection connections ih =>
    cases connection with
    | some e => exact hzero 0 (Nat.zero_le j) e rfl
    | none =>
      cases j with
      | zero => cases Option.some.inj hj
      | succ j =>
        exact ih hj fun k hk => hzero (k + 1) (Nat.succ_le_succ hk)

/-- The calls of the driver look at all connections, each with a handle. -/
theorem checkError_eq_checkErrors (args : MysqlArgs) (reconnects : Bool) (c : Conn n) :
    ((checkError args reconnects c).1.sqlErrno, (checkError args reconnects c).2.1)
      = checkErrors args reconnects c.sqlErrno
          (List.ofFn fun i => some (c.instances i).errno) := by
  rw [checkErrors, List.ofFn_succ, if_neg (List.cons_ne_nil _ _), checkErrorLoop]
  rfl

/-- **When `check_error` classifies an error.** Let one connection have failed and no other have
an error.  The error is classified as it should be if and only if no connection with a handle
comes before that one. -/
theorem check_error_classifies_iff (args : MysqlArgs) (reconnects : Bool) (sqlErrno : ℕ)
    (connections : List (Option ℕ)) (i error : ℕ) (herror : error ≠ 0)
    (hi : connections[i]? = some (some error))
    (hothers : ∀ j e, j ≠ i → connections[j]? = some (some e) → e = 0) :
    Classified args reconnects error (checkErrors args reconnects sqlErrno connections)
      ↔ ∀ j < i, connections[j]? = some none := by
  have hne : connections ≠ [] := by
    rintro rfl
    exact nomatch hi
  rw [checkErrors, if_neg hne]
  refine ⟨fun h j hj => ?_, fun hfirst => ?_⟩
  · have hlen : j < connections.length :=
      Nat.lt_trans hj (List.getElem?_eq_some_iff.mp hi).choose
    cases hconn : connections[j]? with
    | none => exact absurd (List.getElem?_eq_none_iff.mp hconn) (Nat.not_le_of_lt hlen)
    | some connection =>
      cases connection with
      | none => rfl
      | some e =>
        -- The loop got no further, and `sql_errno` is 0.
        have hzero := checkErrorLoop_of_some args reconnects sqlErrno hconn
          fun k hk e' he' => hothers k e' (Nat.ne_of_lt (Nat.lt_of_le_of_lt hk hj)) he'
        exact absurd (h.sqlErrno.symm.trans hzero) herror
  · rw [checkErrorLoop_of_none hi hfirst]
    exact classified_verdict args reconnects error

/-- Deadlocks can be ignored. -/
def deadlocksIgnored : MysqlArgs :=
  { dryRun := false, usePs := true, ignoredErrors := [⟨1213, false⟩] }

theorem first_deadlock_is_classified :
    Classified deadlocksIgnored false 1213
      (checkErrors deadlocksIgnored false 0 [some 1213, some 0]) := by
  refine (check_error_classifies_iff deadlocksIgnored false 0 [some 1213, some 0] 0 1213
    (by decide) rfl fun j e hj he => ?_).mpr fun j hj => absurd hj (Nat.not_lt_zero j)
  match j with
  | 0 => exact absurd rfl hj
  | 1 => exact (Option.some.inj (Option.some.inj he)).symm

/-- A deadlock on the second of two instances: the query is given up, and `sql_errno` is 0. -/
theorem second_deadlock_is_fatal :
    ¬Classified deadlocksIgnored false 1213
        (checkErrors deadlocksIgnored false 0 [some 0, some 1213]) ∧
      (mysqlDrvQuery deadlocksIgnored (fun _ _ => 0) false (Conn.init 1) [68, 79] 2
        (fun i => if i = 0 then .noResult 0 else .refused 1213) (Env.blank 1).rs).toOption.map
          (fun out => (out.1.sqlErrno, out.2.rc)) = some (0, DbError.fatal.code) := by
  refine ⟨fun h => ?_, by decide +kernel⟩
  exact absurd h.sqlErrno (by decide)

/-! ### Counters of prepared statements -/

/-- How the execution of a statement ends. -/
inductive Outcome where
  | executeFailed (errno : ℕ)
  | storeFailed (errno : ℕ)
  | done (fieldCount affectedRows : ℕ)

/-- The class of a statement: `SB_CNT_READ` if there is a result set, `SB_CNT_WRITE` if rows were
affected and `SB_CNT_OTHER` if not; `SB_CNT_RECONNECT` for a lost connection that is to be made
again and `SB_CNT_ERROR` for any other error. -/
def Outcome.counter (args : MysqlArgs) : Outcome → SbCounterType
  | .executeFailed errno => (verdict args true errno).2
  | .storeFailed errno => (verdict args true errno).2
  | .done fieldCount affectedRows =>
    if fieldCount ≠ 0 then .read else if affectedRows % 2 ^ 32 > 0 then .write else .other

/-- The outcome on an instance of the compare driver, which does not look at the number of rows
affected. -/
def ExecAnswer.outcome (a : ExecAnswer) (affectedRows : ℕ) : Outcome :=
  match a.executeError, a.storeError with
  | some errno, _ => .executeFailed errno
  | none, some errno => .storeFailed errno
  | none, none => .done a.fieldCount affectedRows

/-- The client library reports the outcome to the MySQL driver, in the next two calls. -/
def Outcome.Reported (m : MysqlState) : Outcome → Prop
  | .executeFailed errno => m.answer.failed = true ∧ m.answer.errno = errno
  | .storeFailed errno =>
    m.answer.failed = false ∧ m.tick.answer.failed = true ∧ m.tick.answer.null = true ∧
      m.tick.answer.errno = errno ∧ errno ≠ 0
  | .done fieldCount affectedRows =>
    m.answer.failed = false ∧ m.tick.answer.failed = false ∧ m.tick.answer.errno = 0 ∧
      (m.tick.answer.null = true ↔ fieldCount = 0) ∧ m.tick.answer.fieldCount = fieldCount ∧
      m.tick.answer.affectedRows = affectedRows

theorem counter_checkError (args : MysqlArgs) (m : MysqlState) (errno : ℕ) (rs : RsData ℕ) :
    (Sysbench.checkError args m errno rs).2.2.counter = (verdict args true errno).2 := by
  unfold Sysbench.checkError verdict
  split
  · split
    · rfl
    · rfl
  · rfl

section MysqlDriver

variable {m : MysqlState} {rs : RsData ℕ} {o : Outcome}

theorem counter_of_stored (ho : o.Reported m) {stored : MysqlState × DbError × RsData ℕ}
    (hstored : m.answer.failed = false → stored.2.2.counter = o.counter args) :
    (if m.answer.failed then Sysbench.checkError args m.tick m.answer.errno rs
      else stored).2.2.counter = o.counter args := by
  cases hfailed : m.answer.failed with
  | false =>
    exact hstored hfailed
  | true =>
    rw [if_pos rfl, counter_checkError]
    cases o with
    | executeFailed errno => rw [ho.2, Outcome.counter]
    | storeFailed errno | done fieldCount affectedRows => cases hfailed.symm.trans ho.1

theorem counter_mysqlStoreResult (ho : o.Reported m) (hok : m.answer.failed = false) :
    (mysqlStoreResult args m.tick rs).2.2.counter = o.counter args := by
  rw [mysqlStoreResult]
  dsimp only
  cases o with
  | executeFailed errno => cases hok.symm.trans ho.1
  | storeFailed errno =>
    obtain ⟨-, -, hnull, rfl, hne⟩ := ho
    rw [if_pos hnull, if_neg fun h => hne h.1, counter_checkError]
    rfl
  | done fieldCount affectedRows =>
    obtain ⟨-, -, herrno, hnull, rfl, rfl⟩ := ho
    rw [Outcome.counter]
    by_cases hnone : m.tick.answer.fieldCount = 0
    · rw [if_pos (hnull.mpr hnone), if_pos ⟨herrno, hnone⟩, if_neg (not_not_intro hnone)]
      split
      · rfl
      · rfl
    · rw [if_neg fun h => hnone (hnull.mp h), if_pos hnone]

theorem counter_mysqlStmtStoreResult (ho : o.Reported m) (hok : m.answer.failed = false)
    (h : ℕ) : (mysqlStmtStoreResult args m.tick h rs).2.2.counter = o.counter args := by
  rw [mysqlStmtStoreResult]
  cases o with
  | executeFailed errno => cases hok.symm.trans ho.1
  | storeFailed errno =>
    obtain ⟨-, hfailed, -, rfl, -⟩ := ho
    rw [if_pos hfailed, counter_checkError]
    rfl
  | done fieldCount affectedRows =>
    obtain ⟨-, hstored, herrno, -, rfl, rfl⟩ := ho
    rw [if_neg (by rw [hstored]; exact Bool.false_ne_true), Outcome.counter]
    by_cases hnone : m.tick.answer.fieldCount = 0
    · rw [if_pos ⟨herrno, hnone⟩, if_neg (not_not_intro hnone)]
    · rw [if_neg fun h => hnone h.2, if_pos hnone]

theorem counter_mysqlDrvExecute {stmt : MysqlStmt} (rs : RsData ℕ)
    (hdry : args.dryRun = false) (hptr : stmt.emulated = false → stmt.ptr ≠ none)
    (ho : o.Reported m) :
    (Sysbench.mysqlDrvExecute args m stmt rs).2.2.counter = o.counter args := by
  have hwet : ¬args.dryRun = true := by
    rw [hdry]
    exact Bool.false_ne_true
  rw [Sysbench.mysqlDrvExecute, if_neg hwet]
  cases hemulated : stmt.emulated with
  | true =>
    rw [Sysbench.mysqlDrvQuery, if_neg hwet]
    exact counter_of_stored ho (counter_mysqlStoreResult ho)
  | false =>
    cases hstmt : stmt.ptr with
    | none => exact absurd hstmt (hptr hemulated)
    | some h => exact counter_of_stored ho fun hok => counter_mysqlStmtStoreResult ho hok h

end MysqlDriver

/-- The compare driver returns before it looks at the first instance's result: it does not
execute emulated statements, nor any but a change that has no metadata, and it gives up at an
error. -/
def ReturnsEarly (stmt : MultiStmt n) (a : ExecAnswer) : Prop :=
  stmt.emulated = true ∨ (isDml stmt.query = false ∧ a.result = none) ∨
    a.executeError ≠ none ∨ a.storeError ≠ none

/-- What one round does to `rs`. -/
theorem rs_executeInstance {query : Bytes} {v v' : ExecVars n} {i : Fin (n + 1)} {a : ExecAnswer}
    {rc : Option ℤ} (h : executeInstance args reconnects query v i a = .ok (v', rc)) :
    v'.rs.counter
      = if i = 0 ∧ a.executeError = none ∧ a.storeError = none then .other
        else v.rs.counter := by
  unfold executeInstance at h
  split at h
  · rename_i herror
    cases h
    rw [if_neg (by rw [herror]; simp)]
  · rename_i hexecuted
    dsimp only at h
    split at h
    · rename_i herror
      cases h
      rw [if_neg (by rw [herror]; simp)]
    · rename_i hstored
      by_cases hi : i = 0
      · rw [if_pos ⟨hi, hexecuted, hstored⟩]
        rw [if_pos hi] at h
        split at h
        · obtain ⟨text, -, h⟩ := bind_eq_ok.mp h
          cases h
          rfl
        · cases h
          rfl
      · rw [if_neg fun hc => hi hc.1]
        rw [if_neg hi] at h
        split at h
        · obtain ⟨text, -, h⟩ := bind_eq_ok.mp h
          cases h
          rfl
        · cases h
          rfl

/-- Only the first instance has a say in `rs`. -/
theorem rs_executeLoop {stmt : MultiStmt n}
    {l : List (Fin (n + 1))} (hl : 0 ∉ l) {v v' : ExecVars n} {rc : Option ℤ}
    (h : executeLoop args reconnects stmt answers l v = .ok (v', rc)) :
    v'.rs.counter = v.rs.counter := by
  induction l generalizing v with
  | nil =>
    cases h
    rfl
  | cons i rest ih =>
    obtain ⟨hi, hrest⟩ := not_or.mp (mt mem_cons.mpr hl)
    rw [executeLoop] at h
    split at h
    · obtain ⟨bound, -, h⟩ := bind_eq_ok.mp h
      cases bound with
      | false =>
        cases h
        rfl
      | true =>
        obtain ⟨⟨v₁, rc₁⟩, hround, h⟩ := bind_eq_ok.mp h
        have hrs := rs_executeInstance hround
        rw [if_neg fun hc => hi hc.1.symm] at hrs
        cases rc₁ with
        | some e =>
          cases h
          exact hrs
        | none => exact (ih hrest h).trans hrs
    · exact ih hrest h

theorem counter_compareExecute {stack : Fin (n + 1) → ℕ → UInt8} {c c' : Conn n}
    {stmt : MultiStmt n} {rs : RsData Empty} {r : Return n}
    (hdry : args.dryRun = false)
    (h : mysqlDrvExecute args stack reconnects c stmt answers rs = .ok (c', r)) :
    (ReturnsEarly stmt (answers 0) → r.rs.counter = rs.counter) ∧
      (¬ReturnsEarly stmt (answers 0) → r.rs.counter = .other) := by
  rw [mysqlDrvExecute, if_neg (by rw [hdry]; exact Bool.false_ne_true)] at h
  cases hemulated : stmt.emulated with
  | true =>
    rw [if_pos hemulated] at h
    cases h
    exact ⟨fun _ => rfl, fun hearly => absurd (.inl hemulated) hearly⟩
  | false =>
    rw [if_neg (by rw [hemulated]; exact Bool.false_ne_true)] at h
    obtain ⟨⟨v, rc⟩, hloop, h⟩ := bind_eq_ok.mp h
    have hrs : r.rs = v.rs := by
      cases rc with
      | some rc =>
        cases h
        rfl
      | none =>
        obtain ⟨mismatches, -, h⟩ := bind_eq_ok.mp h
        cases h
        rfl
    have hzero : (0 : Fin (n + 1)) ∉ (finRange n).map Fin.succ := by
      intro hmem
      obtain ⟨k, -, hk⟩ := mem_map.mp hmem
      exact Fin.succ_ne_zero k hk
    rw [finRange_succ, executeLoop, if_pos (stmt.prepared hemulated 0)] at hloop
    rw [hrs]
    obtain ⟨bound, hbind, hloop⟩ := bind_eq_ok.mp hloop
    cases bound with
    | false =>
      cases hloop
      have hmissing := (bindResult_ok hbind).mp rfl
      exact ⟨fun _ => rfl, fun hearly => absurd (.inr (.inl hmissing)) hearly⟩
    | true =>
      obtain ⟨⟨v₁, rc₁⟩, hround, hloop⟩ := bind_eq_ok.mp hloop
      have hround := rs_executeInstance hround
      have hlast : v.rs.counter = v₁.rs.counter := by
        cases rc₁ with
        | some e =>
          cases hloop
          rfl
        | none => exact rs_executeLoop hzero hloop
      have hbound : ¬(isDml stmt.query = false ∧ (answers 0).result = none) :=
        mt (bindResult_ok hbind).mpr (by decide)
      rw [hlast, hround]
      refine ⟨fun hearly => if_neg fun hok => ?_, fun hearly => if_pos ⟨rfl, ?_, ?_⟩⟩
      · rcases hearly with h | h | h | h
        · cases hemulated.symm.trans h
        · exact hbound h
        · exact h hok.2.1
        · exact h hok.2.2
      · exact not_not.mp fun hne => hearly (.inr (.inr (.inl hne)))
      · exact not_not.mp fun hne => hearly (.inr (.inr (.inr hne)))

/-- The counter that was there before is that of the statement, if the driver returns early;
otherwise the statement has neither returned a result set nor affected a row. -/
def CountsAlike (args : MysqlArgs) (stmt : MultiStmt n) (a : ExecAnswer) (affectedRows : ℕ)
    (before : SbCounterType) : Prop :=
  (ReturnsEarly stmt a ∧ before = (a.outcome affectedRows).counter args) ∨
    (¬ReturnsEarly stmt a ∧ a.fieldCount = 0 ∧ affectedRows % 2 ^ 32 = 0)

/-- **When the two drivers count a prepared statement alike.** The MySQL driver leaves the class
of the outcome in `rs->counter`; for the same outcome on its first instance, whatever the
others do, the compare driver leaves the same class if and only if `CountsAlike`. -/
theorem prepared_counters_agree_iff (args : MysqlArgs) (stack : Fin (n + 1) → ℕ → UInt8)
    (reconnects : Bool) (c c' : Conn n) (stmt : MultiStmt n)
    (answers : Fin (n + 1) → ExecAnswer) (affectedRows : ℕ) (rs : RsData Empty) (r : Return n)
    (m : MysqlState) (mystmt : MysqlStmt) (myrs : RsData ℕ)
    (hdry : args.dryRun = false) (hptr : mystmt.emulated = false → mystmt.ptr ≠ none)
    (houtcome : ((answers 0).outcome affectedRows).Reported m)
    (h : mysqlDrvExecute args stack reconnects c stmt answers rs = .ok (c', r)) :
    (Sysbench.mysqlDrvExecute args m mystmt myrs).2.2.counter
        = ((answers 0).outcome affectedRows).counter args ∧
      (r.rs.counter = (Sysbench.mysqlDrvExecute args m mystmt myrs).2.2.counter
        ↔ CountsAlike args stmt (answers 0) affectedRows rs.counter) := by
  have hclass := counter_mysqlDrvExecute myrs hdry hptr houtcome
  obtain ⟨hearly, hlate⟩ := counter_compareExecute hdry h
  refine ⟨hclass, ?_⟩
  rw [hclass]
  by_cases hreturns : ReturnsEarly stmt (answers 0)
  · rw [hearly hreturns]
    refine ⟨fun heq => .inl ⟨hreturns, heq⟩, ?_⟩
    rintro (⟨-, heq⟩ | ⟨hnot, -⟩)
    · exact heq
    · exact absurd hreturns hnot
  · have hexecuted : (answers 0).executeError = none :=
      not_not.mp fun hne => hreturns (.inr (.inr (.inl hne)))
    have hstored : (answers 0).storeError = none :=
      not_not.mp fun hne => hreturns (.inr (.inr (.inr hne)))
    have hdone : (answers 0).outcome affectedRows
        = .done (answers 0).fieldCount affectedRows := by
      rw [ExecAnswer.outcome, hexecuted, hstored]
    rw [hlate hreturns, CountsAlike, hdone, Outcome.counter]
    by_cases hfields : (answers 0).fieldCount = 0
    · rw [if_neg (not_not_intro hfields)]
      by_cases hrows : affectedRows % 2 ^ 32 = 0
      · rw [if_neg (by rw [hrows]; exact Nat.lt_irrefl 0)]
        exact iff_of_true rfl (.inr ⟨hreturns, hfields, hrows⟩)
      · rw [if_pos (Nat.pos_of_ne_zero hrows)]
        refine iff_of_false nofun ?_
        rintro (⟨hyes, -⟩ | ⟨-, -, hzero⟩)
        · exact hreturns hyes
        · exact hrows hzero
    · rw [if_pos hfields]
      refine iff_of_false nofun ?_
      rintro (⟨hyes, -⟩ | ⟨-, hzero, -⟩)
      · exact hreturns hyes
      · exact hfields hzero

/-- `update`, prepared on two instances. -/
def updateStmt : MultiStmt 1 where
  query := [117, 112, 100, 97, 116, 101]
  emulated := false
  statements := fun _ => true
  prepared := fun _ _ => rfl

/-- It has been executed, without a result set. -/
def updated : ExecAnswer where
  result := none
  bindFailed := false
  executeError := none
  storeError := none
  numRows := 0
  fieldCount := 0

/-- The answers that the MySQL driver gets for a statement without a result set. -/
def affecting (rows : ℕ) : MysqlState :=
  MysqlState.init fun _ => { Answer.empty with affectedRows := rows }

/-- Server-side statement number 0 of the MySQL driver. -/
def preparedStmt : MysqlStmt := { ptr := some 0, emulated := false }

/-- What both drivers leave in `rs->counter` for an update of that many rows. -/
def updateCounters (rows : ℕ) : Option SbCounterType × SbCounterType :=
  ((mysqlDrvExecute strictArgs (fun _ _ => 0) false (Conn.init 1) updateStmt (fun _ => updated)
      (Env.blank 1).rs).toOption.map (·.2.rs.counter),
    (Sysbench.mysqlDrvExecute strictArgs (affecting rows) preparedStmt
      { counter := .other, nrows := 0, nfields := 0, ptr := none }).2.2.counter)

theorem update_of_no_row_is_counted_alike :
    ∃ c' r, mysqlDrvExecute strictArgs (fun _ _ => 0) false (Conn.init 1) updateStmt
        (fun _ => updated) (Env.blank 1).rs = .ok (c', r) ∧
      r.rs.counter = (Sysbench.mysqlDrvExecute strictArgs (affecting 0) preparedStmt
        { counter := .other, nrows := 0, nfields := 0, ptr := none }).2.2.counter := by
  have hreported : (updated.outcome 0).Reported (affecting 0) :=
    ⟨rfl, rfl, rfl, iff_of_true rfl rfl, rfl, rfl⟩
  have hlate : ¬ReturnsEarly updateStmt updated := by
    rintro (h | ⟨h, -⟩ | h | h)
    · exact nomatch h
    · exact absurd h (by decide)
    · exact h rfl
    · exact h rfl
  refine ⟨_, _, rfl, ?_⟩
  exact (prepared_counters_agree_iff strictArgs (fun _ _ => 0) false (Conn.init 1) _ updateStmt
    (fun _ => updated) 0 (Env.blank 1).rs _ (affecting 0) preparedStmt
    { counter := .other, nrows := 0, nfields := 0, ptr := none } rfl nofun
    hreported rfl).2.mpr (.inr ⟨hlate, rfl, rfl⟩)

/-- An update of one row is a write for the MySQL driver, and nothing special for the other. -/
theorem update_of_one_row_is_counted_differently :
    updateCounters 1 = (some .other, .write) := by
  decide +kernel

end Sysbench.Compare
