/-
Which queries the driver has accepted.

The layer's log has every query that reached the driver, whatever the answer.  A driver can
be made to keep the texts it answered without an error next to its own state.  The layer
never looks into that state, so it makes the same calls and returns the same values over
the driver and over its recording: `dbStep_recording`.
-/
import Sysbench.Lib.Runs
import Sysbench.Model.DbCalls

namespace Sysbench

open Runs

variable {σ δ ρ A : Type}

/-- The answer of an operation, with the accepted queries as they were. -/
def keepAccepted (s : σ × List Bytes) (answer : σ × A) : (σ × List Bytes) × A :=
  ((answer.1, s.2), answer.2)

/-- The driver with a list of the queries it has accepted. -/
def Driver.recording (D : Driver σ δ ρ) : Driver (σ × List Bytes) δ ρ where
  describe := D.describe.map fun op s => op s.1
  connect s := keepAccepted s (D.connect s.1)
  disconnect s := keepAccepted s (D.disconnect s.1)
  reconnect := D.reconnect.map fun op s => keepAccepted s (op s.1)
  prepare s query := keepAccepted s (D.prepare s.1 query)
  bindParam s d len := keepAccepted s (D.bindParam s.1 d len)
  bindResult s d len := keepAccepted s (D.bindResult s.1 d len)
  execute s d data := keepAccepted s (D.execute s.1 d data)
  stmtNextResult := D.stmtNextResult.map fun op s d data => keepAccepted s (op s.1 d data)
  fetchRow := D.fetchRow.map fun op s data => (op s.1 data).map (keepAccepted s)
  query s text len data :=
    let answer := D.query s.1 text len data
    ((answer.1, if answer.2.1 = .none then s.2 ++ [text.take len] else s.2), answer.2)
  moreResults := D.moreResults.map fun op s => keepAccepted s (op s.1)
  nextResult := D.nextResult.map fun op s data => keepAccepted s (op s.1 data)
  freeResults s stmt data := (D.freeResults s.1 stmt data).map (keepAccepted s)
  close s d := keepAccepted s (D.close s.1 d)

/-- A connection without the recorded queries. -/
def World.forget (w : World (σ × List Bytes) δ ρ) : World σ δ ρ where
  con := w.con
  freed := w.freed
  stmts := w.stmts
  nextStmt := w.nextStmt
  counters := w.counters
  drv := w.drv.1
  log := w.log

@[simp]
theorem World.forget_con (w : World (σ × List Bytes) δ ρ) : w.forget.con = w.con := rfl

@[simp]
theorem World.forget_drv (w : World (σ × List Bytes) δ ρ) : w.forget.drv = w.drv.1 := rfl

/-- What a call returns, without the recorded queries. -/
def forgetFst (r : World (σ × List Bytes) δ ρ × A) : World σ δ ρ × A :=
  (r.1.forget, r.2)

/-! ### The pieces of a call -/

variable {D : Driver σ δ ρ} {w : World (σ × List Bytes) δ ρ}

/-- A test that does not depend on the driver has the same outcome over both. -/
theorem ite_forget {p : Prop} [Decidable p]
    {x y : Except Fault (World (σ × List Bytes) δ ρ × A)} {x' y' : Except Fault (World σ δ ρ × A)}
    (hx : x.map forgetFst = x') (hy : y.map forgetFst = y') :
    (if p then x else y).map forgetFst = if p then x' else y' := by
  subst hx hy
  exact apply_ite (Except.map forgetFst) p x y

theorem answered_forget (w : World (σ × List Bytes) δ ρ)
    (a : (σ × List Bytes) × DbError × RsData ρ) :
    forgetFst (w.answered a) = w.forget.answered (a.1.1, a.2) := by
  unfold World.answered
  simp only [apply_ite forgetFst]
  rfl

theorem dbFreeResultsInt_forget :
    (dbFreeResultsInt D.recording w).map forgetFst = dbFreeResultsInt D w.forget := by
  have hstmt : w.forget.statementRef = w.statementRef := rfl
  simp only [dbFreeResultsInt, Driver.recording, World.forget_drv, World.forget_con, hstmt]
  cases D.freeResults w.drv.1 w.statementRef w.con.rs.toRsData with
  | none | some answer => rfl

theorem releaseResults_forget :
    (releaseResults D.recording w).map forgetFst = releaseResults D w.forget :=
  ite_forget (map_bind_eq dbFreeResultsInt_forget fun _ => rfl) rfl

/-! ### The calls -/

/-- The frame of the calls that begin with the guard for an open connection. -/
theorem guarded_forget {closed : World (σ × List Bytes) δ ρ × A}
    {run : World (σ × List Bytes) δ ρ × Bool → Except Fault (World (σ × List Bytes) δ ρ × A)}
    {run' : World σ δ ρ × Bool → Except Fault (World σ δ ρ × A)}
    (hkept : ∀ w₁, (run (w₁, false)).map forgetFst = run' (w₁.forget, false))
    (hrun : ∀ w₁, (run (w₁, true)).map forgetFst = run' (w₁.forget, true)) :
    (if w.con.state = .invalid then .ok closed
      else releaseResults D.recording w >>= run).map forgetFst
      = if w.forget.con.state = .invalid then .ok (forgetFst closed)
        else releaseResults D w.forget >>= run' := by
  refine ite_forget rfl (map_bind_eq releaseResults_forget ?_)
  rintro ⟨w₁, released⟩
  cases released with
  | false => exact hkept w₁
  | true => exact hrun w₁

theorem dbQuery_forget (text : Bytes) (len : ℕ) :
    (dbQuery D.recording w text len).map forgetFst = dbQuery D w.forget text len :=
  guarded_forget (fun _ => rfl) fun _ => congrArg Except.ok (answered_forget _ _)

theorem dbExecute_forget (s : ℕ) (d : δ) :
    (dbExecute D.recording w s d).map forgetFst = dbExecute D w.forget s d :=
  guarded_forget (fun _ => rfl) fun _ => congrArg Except.ok (answered_forget _ _)

theorem dbStmtNextResult_forget (s : ℕ) (d : δ) :
    (dbStmtNextResult D.recording w s d).map forgetFst = dbStmtNextResult D w.forget s d := by
  refine guarded_forget (fun _ => rfl) fun w₁ => ?_
  simp only [Driver.recording]
  cases D.stmtNextResult with
  | none => rfl
  | some op => exact congrArg Except.ok (answered_forget _ _)

theorem dbNextResult_forget :
    (dbNextResult D.recording w).map forgetFst = dbNextResult D w.forget := by
  refine guarded_forget (fun _ => rfl) fun w₁ => ?_
  simp only [Driver.recording]
  cases D.nextResult with
  | none => rfl
  | some op => exact congrArg Except.ok (answered_forget _ _)

theorem dbMoreResults_forget :
    forgetFst (dbMoreResults D.recording w) = dbMoreResults D w.forget := by
  simp only [dbMoreResults, Driver.recording, World.forget_con]
  cases D.moreResults with
  | none | some op =>
    cases w.con.state with
    | ready | invalid | resultSet => rfl

theorem dbFetchRow_forget :
    (dbFetchRow D.recording w).map forgetFst = dbFetchRow D w.forget := by
  refine ite_forget rfl (ite_forget rfl ?_)
  simp only [Driver.recording, World.forget_con, World.forget_drv]
  cases D.fetchRow with
  | none => rfl
  | some op =>
    simp only [Option.map_some]
    cases op w.drv.1 w.con.rs.toRsData with
    | none => rfl
    | some answer => exact ite_forget rfl (ite_forget rfl rfl)

theorem dbFreeResults_forget :
    (dbFreeResults D.recording w).map forgetFst = dbFreeResults D w.forget := by
  simp only [dbFreeResults, World.forget_con]
  cases w.con.state with
  | ready | invalid => rfl
  | resultSet => exact dbFreeResultsInt_forget

/-- The frame of the calls about a statement, which do not touch the result set. -/
theorem open_forget {closed run : World (σ × List Bytes) δ ρ × A} {run' : World σ δ ρ × A}
    (hrun : forgetFst run = run') :
    forgetFst (if w.con.state = .invalid then closed else run)
      = if w.forget.con.state = .invalid then forgetFst closed else run' := by
  subst hrun
  exact apply_ite forgetFst (w.con.state = .invalid) closed run

theorem dbPrepare_forget (query : Bytes) :
    forgetFst (dbPrepare D.recording w query) = dbPrepare D w.forget query :=
  open_forget (apply_ite forgetFst ((D.prepare w.drv.1 query).2.1 ≠ 0) _ _)

theorem dbBindParam_forget (s : ℕ) (d : δ) (len : ℕ) :
    forgetFst (dbBindParam D.recording w s d len) = dbBindParam D w.forget s d len :=
  open_forget rfl

theorem dbBindResult_forget (s : ℕ) (d : δ) (len : ℕ) :
    forgetFst (dbBindResult D.recording w s d len) = dbBindResult D w.forget s d len :=
  open_forget rfl

theorem dbClose_forget (s : ℕ) (d : δ) :
    (dbClose D.recording w s d).map forgetFst = dbClose D w.forget s d := by
  refine guarded_forget (fun _ => rfl) fun w₁ => ite_forget (ite_forget rfl (ite_forget ?_ rfl)) rfl
  exact map_bind_eq dbFreeResultsInt_forget fun _ => ite_forget rfl rfl

theorem dbConnectionClose_forget :
    (dbConnectionClose D.recording w).map forgetFst = dbConnectionClose D w.forget :=
  guarded_forget (fun _ => rfl) fun _ => rfl

theorem dbConnectionReconnect_forget :
    (dbConnectionReconnect D.recording w).map forgetFst = dbConnectionReconnect D w.forget := by
  simp only [dbConnectionReconnect, Driver.recording]
  cases D.reconnect with
  | none => rfl
  | some op => exact guarded_forget (fun _ => ite_forget rfl rfl) fun _ => ite_forget rfl rfl

theorem dbConnectionFree_forget :
    (dbConnectionFree D.recording w).map World.forget = dbConnectionFree D w.forget := by
  unfold dbConnectionFree
  by_cases hstate : w.con.state = .invalid
  · rw [if_pos hstate, World.forget_con, if_pos hstate]
    rfl
  · rw [if_neg hstate, World.forget_con, if_neg hstate]
    exact map_bind_eq dbConnectionClose_forget fun _ => rfl

/-! ### Bulk inserts -/

theorem dbDescribe_forget : forgetFst (dbDescribe D.recording w) = dbDescribe D w.forget := by
  simp only [dbDescribe, Driver.recording]
  cases D.describe with
  | none | some op => rfl

theorem dbBulkInsertInit_forget (query : Bytes) (len : ℕ) (malloc : Option (ℕ → UInt8)) :
    (dbBulkInsertInit D.recording w query len malloc).map forgetFst
      = dbBulkInsertInit D w.forget query len malloc := by
  refine guarded_forget (fun _ => rfl) fun w₁ => ?_
  have hdescribe : dbDescribe D w₁.forget = forgetFst (dbDescribe D.recording w₁) :=
    dbDescribe_forget.symm
  simp only [if_true, hdescribe, forgetFst]
  obtain ⟨w₂, caps⟩ := dbDescribe D.recording w₁
  cases caps with
  | none => rfl
  | some caps =>
    refine ite_forget rfl ?_
    cases malloc with
    | none => rfl
    | some fresh =>
      simp only
      cases CMemory.strcpy ((List.range bulkPacketSize).map fresh) 0 query with
      | none | some buffer => rfl

theorem dbBulkCommit_forget (isLast : Bool) :
    (dbBulkCommit D.recording w isLast).map forgetFst = dbBulkCommit D w.forget isLast := by
  refine ite_forget (ite_forget (map_bind_eq (dbQuery_forget commitText 6) fun r => ?_) rfl) rfl
  exact ite_forget rfl rfl

theorem dbBulkDoInsert_forget (isLast : Bool) :
    (dbBulkDoInsert D.recording w isLast).map forgetFst = dbBulkDoInsert D w.forget isLast := by
  refine ite_forget rfl (map_bind_eq (dbQuery_forget _ _) fun r => ite_forget rfl ?_)
  refine map_bind_eq (dbBulkCommit_forget isLast) fun r => ?_
  obtain ⟨w₂, committed⟩ := r
  cases committed with
  | false | true => rfl

theorem dbBulkAppend_forget (query : Bytes) (len : ℕ) :
    (dbBulkAppend w query len).map forgetFst = dbBulkAppend w.forget query len := by
  have hbuffer : w.forget.con.bulkBuffer = w.con.bulkBuffer := rfl
  have hrows : w.forget.con.bulkCnt = w.con.bulkCnt := rfl
  have hptr : w.forget.con.bulkPtr = w.con.bulkPtr := rfl
  unfold dbBulkAppend
  simp only [hbuffer, hrows, hptr]
  split <;> rfl

theorem dbBulkInsertNext_forget (query : Bytes) (len : ℕ) :
    (dbBulkInsertNext D.recording w query len).map forgetFst
      = dbBulkInsertNext D w.forget query len := by
  refine guarded_forget (fun _ => rfl) fun w₁ => ?_
  simp only [if_true, World.forget_con]
  cases w₁.con.bulkBuffer with
  | none => rfl
  | some buffer =>
    refine ite_forget (ite_forget rfl ?_) (dbBulkAppend_forget query len)
    refine map_bind_eq (dbBulkDoInsert_forget false) fun r => ?_
    exact ite_forget rfl (dbBulkAppend_forget query len)

theorem dbBulkInsertDone_forget :
    (dbBulkInsertDone D.recording w).map forgetFst = dbBulkInsertDone D w.forget :=
  map_bind_eq (dbBulkDoInsert_forget true) fun _ => ite_forget rfl rfl

/-! ### Any call -/

/-- A call with a statement follows its handle first, which has nothing to do with the driver. -/
theorem stmt_forget {s : ℕ} {run : δ → Except Fault (World (σ × List Bytes) δ ρ × A)}
    {run' : δ → Except Fault (World σ δ ρ × A)} (hrun : ∀ d, (run d).map forgetFst = run' d) :
    (w.stmt s >>= run).map forgetFst = w.forget.stmt s >>= run' := by
  have hstmt : (w.stmt s).map id = w.stmt s := by
    cases w.stmt s with
    | error e | ok d => rfl
  exact map_bind_eq hstmt hrun

/-- Over the recording, the layer does and returns what it does over the driver. -/
theorem dbStep_recording (c : DbCall) :
    (dbStep D.recording w c).map forgetFst = dbStep D w.forget c := by
  refine ite_forget rfl ?_
  cases c with
  | prepare query =>
    simp only [dbCall, ← dbPrepare_forget]
    rfl
  | bindParam s len =>
    refine stmt_forget fun d => ?_
    rw [← dbBindParam_forget]
    rfl
  | bindResult s len =>
    refine stmt_forget fun d => ?_
    rw [← dbBindResult_forget]
    rfl
  | execute s => exact stmt_forget fun d => map_bind_eq (dbExecute_forget s d) fun _ => rfl
  | stmtNextResult s =>
    exact stmt_forget fun d => map_bind_eq (dbStmtNextResult_forget s d) fun _ => rfl
  | fetchRow => exact map_bind_eq dbFetchRow_forget fun _ => rfl
  | query text len => exact map_bind_eq (dbQuery_forget text len) fun _ => rfl
  | moreResults =>
    simp only [dbCall, ← dbMoreResults_forget]
    rfl
  | nextResult => exact map_bind_eq dbNextResult_forget fun _ => rfl
  | freeResults => exact map_bind_eq dbFreeResults_forget fun _ => rfl
  | close s => exact stmt_forget fun d => map_bind_eq (dbClose_forget s d) fun _ => rfl
  | bulkInsertInit q len malloc =>
    exact map_bind_eq (dbBulkInsertInit_forget q len malloc) fun _ => rfl
  | bulkInsertNext q len => exact map_bind_eq (dbBulkInsertNext_forget q len) fun _ => rfl
  | bulkInsertDone => exact map_bind_eq dbBulkInsertDone_forget fun _ => rfl
  | connectionReconnect => exact map_bind_eq dbConnectionReconnect_forget fun _ => rfl
  | connectionClose => exact map_bind_eq dbConnectionClose_forget fun _ => rfl
  | connectionFree => exact map_bind_eq dbConnectionFree_forget fun _ => rfl

end Sysbench
