/-
What the database layer does to a connection, one effect at a time.

Every entry point is a guard, the release of a result set in progress, and one or a
few driver operations.  `Effect` lists these with the state each is made in, and
`dbCall_effects` says that a call is a chain of them, interleaved in the bulk
functions with changes of the bulk fields alone.  Invariants of runs are then proved
once per effect and never look at the entry points again.

`strict` adds what a caller may promise on top: no text query and no `db_next_result`
with a statement left over in `rs.statement`, and no `db_close` of that statement.
-/
import Mathlib.Logic.Relation
import Sysbench.Lib.Runs
import Sysbench.Model.DbCalls

namespace Sysbench

open Runs

variable {σ δ ρ : Type} {query : Bytes} {d : δ} {len : ℕ} {r : Bool} {s : ℕ}

theorem dbConnectionCreate_some {D : Driver σ δ ρ} {drv : σ} {w : World σ δ ρ}
    (h : dbConnectionCreate D drv = some w) :
    w = ⟨DbConn.init, false, fun _ => none, 0, fun _ => 0, (D.connect drv).1, [.connect]⟩ := by
  unfold dbConnectionCreate at h
  simp only at h
  split at h
  · cases h
  · exact (Option.some.inj h).symm

/-- The connection after `db_free_results_int`. -/
def World.freedResults (w : World σ δ ρ) (drv : σ) (data : RsData ρ) : World σ δ ρ :=
  { w.record .freeResults with
    drv := drv
    con.rs := { data with nrows := 0, nfields := 0, statement := none, rowValues := none }
    con.state := .ready }

inductive Effect (D : Driver σ δ ρ) (strict : Prop) : World σ δ ρ → World σ δ ρ → Prop where
  | free {w : World σ δ ρ} {drv rc data} (hstate : w.con.state = .resultSet)
      (h : D.freeResults w.drv w.statementRef w.con.rs.toRsData = some (drv, rc, data)) :
      Effect D strict w (w.freedResults drv data)
  | error {w : World σ δ ρ} (e : DbError) : Effect D strict w (w.setError e)
  | execute {w : World σ δ ρ} {s d} (hstate : w.con.state = .ready) (hs : w.stmts s = some d) :
      Effect D strict w (((w.setStatement (some s)).record (.execute s)).answered
        (D.execute w.drv d w.con.rs.toRsData)).1
  | stmtNextResult {w : World σ δ ρ} {s d op} (hstate : w.con.state = .ready)
      (hs : w.stmts s = some d) (hop : D.stmtNextResult = some op) :
      Effect D strict w (((w.setStatement (some s)).record (.stmtNextResult s)).answered
        (op w.drv d w.con.rs.toRsData)).1
  | statement {w : World σ δ ρ} {s d} (hstate : w.con.state = .ready) (hs : w.stmts s = some d) :
      Effect D strict w (w.setStatement (some s))
  | query {w : World σ δ ρ} {text len} (hstate : w.con.state = .ready)
      (hclean : strict → w.con.rs.statement = none) :
      Effect D strict w ((w.record (.query text len)).answered
        (D.query w.drv text len w.con.rs.toRsData)).1
  | nextResult {w : World σ δ ρ} {op} (hstate : w.con.state = .ready)
      (hclean : strict → w.con.rs.statement = none) (hop : D.nextResult = some op) :
      Effect D strict w ((w.record .nextResult).answered (op w.drv w.con.rs.toRsData)).1
  | moreResults {w : World σ δ ρ} {op} (hstate : w.con.state = .resultSet)
      (hop : D.moreResults = some op) :
      Effect D strict w { w.record .moreResults with drv := (op w.drv).1 }
  | fetchRow {w : World σ δ ρ} {op drv rc values} (hstate : w.con.state = .resultSet)
      (hop : D.fetchRow = some op)
      (h : op w.drv w.con.rs.toRsData = some (drv, rc, values)) :
      Effect D strict w { w.record .fetchRow with
        drv := drv, con.rs.rowValues := some (w.con.rs.rowValues.getD w.con.rs.nfields) }
  | prepareFailed {w : World σ δ ρ} {query drv rc d} (hstate : w.con.state ≠ .invalid)
      (h : D.prepare w.drv query = (drv, rc, d)) (hrc : rc ≠ 0) :
      Effect D strict w { w.record .prepare with drv := drv }
  | prepared {w : World σ δ ρ} {query drv d} (hstate : w.con.state ≠ .invalid)
      (h : D.prepare w.drv query = (drv, 0, d)) :
      Effect D strict w { w.record .prepare with
        drv := drv
        stmts := fun s => if s = w.nextStmt then some d else w.stmts s
        nextStmt := w.nextStmt + 1 }
  | bindParam {w : World σ δ ρ} {s d len drv rc d'} (hstate : w.con.state ≠ .invalid)
      (hs : w.stmts s = some d) (h : D.bindParam w.drv d len = (drv, rc, d')) :
      Effect D strict w { w.record (.bindParam s) with
        drv := drv, stmts := fun s' => if s' = s then some d' else w.stmts s' }
  | bindResult {w : World σ δ ρ} {s d len drv rc} (hstate : w.con.state ≠ .invalid)
      (hs : w.stmts s = some d) (h : D.bindResult w.drv d len = (drv, rc)) :
      Effect D strict w { w.record (.bindResult s) with drv := drv }
  | close {w : World σ δ ρ} {s d} (hstate : w.con.state = .ready) (hs : w.stmts s = some d)
      (hclean : strict → w.con.rs.statement ≠ some s) :
      Effect D strict w { w.record (.close s) with
        drv := (D.close w.drv d).1, stmts := fun s' => if s' = s then none else w.stmts s' }
  | disconnect {w : World σ δ ρ} (hstate : w.con.state = .ready) :
      Effect D strict w { w.record .disconnect with
        drv := (D.disconnect w.drv).1, con.state := .invalid }
  | reconnect {w : World σ δ ρ} {op s c} (hstate : w.con.state = .ready)
      (hop : D.reconnect = some op) (hs : s ≠ .resultSet) :
      Effect D strict w
        ((({ w.record .reconnect with drv := (op w.drv).1 }
            : World σ δ ρ).setState s).sbCounterInc c)

/-- Changes of the bulk fields, where `bulk` allows them, and the release of the connection's
memory. -/
inductive Bookkeeping (bulk : Prop) : World σ δ ρ → World σ δ ρ → Prop where
  | bulk {w : World σ δ ρ} (hbulk : bulk) (cnt buflen : ℕ) (buffer : Option Bytes)
      (ptr values ccnt cmax : ℕ) :
      Bookkeeping bulk w { w with
        con.bulkCnt := cnt, con.bulkBuflen := buflen, con.bulkBuffer := buffer, con.bulkPtr := ptr
        con.bulkValues := values, con.bulkCommitCnt := ccnt, con.bulkCommitMax := cmax }
  | describe {w : World σ δ ρ} (hstate : w.con.state ≠ .invalid) :
      Bookkeeping bulk w (w.record .describe)
  | dealloc {w : World σ δ ρ} : Bookkeeping bulk w { w with freed := true }

/-- A chain of effects and bookkeeping. -/
abbrev Effects (D : Driver σ δ ρ) (strict bulk : Prop) : World σ δ ρ → World σ δ ρ → Prop :=
  Relation.ReflTransGen fun w w' => Effect D strict w w' ∨ Bookkeeping bulk w w'

/-- Is it one of the calls that change the bulk fields? -/
def DbCall.isBulk : DbCall → Bool
  | .bulkInsertInit _ _ _ | .bulkInsertNext _ _ | .bulkInsertDone => true
  | _ => false

/-- What a strict caller promises about the state a call is made in. -/
def Clean (w : World σ δ ρ) : DbCall → Prop
  | .query _ _ | .nextResult | .bulkInsertNext _ _ | .bulkInsertDone =>
    w.con.state = .ready → w.con.rs.statement = none
  | .close s => w.con.state = .ready → w.con.rs.statement ≠ some s
  | _ => True

section Chains

variable {D : Driver σ δ ρ} {strict bulk : Prop} {w w' w'' : World σ δ ρ}

theorem Effects.one (h : Effect D strict w w') : Effects D strict bulk w w' :=
  Relation.ReflTransGen.single (.inl h)

theorem Effects.book (h : Bookkeeping bulk w w') : Effects D strict bulk w w' :=
  Relation.ReflTransGen.single (.inr h)

theorem Effects.invariant {P : World σ δ ρ → Prop}
    (heff : ∀ {w w'}, P w → Effect D strict w w' → P w')
    (hbook : ∀ {w w'}, P w → Bookkeeping bulk w w' → P w')
    (h : Effects D strict bulk w w') (h0 : P w) : P w' := by
  induction h with
  | refl => exact h0
  | tail _ hstep ih =>
    rcases hstep with he | hb
    · exact heff ih he
    · exact hbook ih hb

/-! ### Releasing -/

theorem dbFreeResultsInt_ok {rc : ℤ} (h : dbFreeResultsInt D w = .ok (w', rc)) :
    ∃ drv data, D.freeResults w.drv w.statementRef w.con.rs.toRsData = some (drv, rc, data) ∧
      w' = w.freedResults drv data := by
  unfold dbFreeResultsInt at h
  split at h
  · cases h
  · rename_i drv rc' data hfree
    cases h
    exact ⟨drv, data, hfree, rfl⟩

/-- What the guard of an open connection leaves. -/
structure Released (D : Driver σ δ ρ) (strict bulk : Prop) (w w' : World σ δ ρ) : Prop where
  effects : Effects D strict bulk w w'
  ready : w'.con.state = .ready
  same : w.con.state = .ready → w' = w
  statement : w.con.state = .resultSet → w'.con.rs.statement = none
  stmts : w'.stmts = w.stmts

/-- A release frees the result set in progress, if there is one. -/
theorem releaseResults_cases {b : Bool} (h : releaseResults D w = .ok (w', b)) :
    ((w.con.state = .invalid ∨ w.con.state = .ready) ∧ w' = w) ∨
      (w.con.state = .resultSet ∧ ∃ drv rc data, w' = w.freedResults drv data ∧
        D.freeResults w.drv w.statementRef w.con.rs.toRsData = some (drv, rc, data)) := by
  unfold releaseResults at h
  by_cases hrs : w.con.state = .resultSet
  · rw [if_pos hrs] at h
    obtain ⟨⟨w₁, rc⟩, hfree, hpure⟩ := bind_eq_ok.mp h
    obtain ⟨drv, data, hop, rfl⟩ := dbFreeResultsInt_ok hfree
    cases hpure
    exact .inr ⟨hrs, drv, rc, data, rfl, hop⟩
  · rw [if_neg hrs] at h
    cases h
    refine .inl ⟨?_, rfl⟩
    cases hst : w.con.state with
    | invalid => exact .inl rfl
    | ready => exact .inr rfl
    | resultSet => exact absurd hst hrs

theorem releaseResults_ok {b : Bool} (hopen : w.con.state ≠ .invalid)
    (h : releaseResults D w = .ok (w', b)) : Released D strict bulk w w' := by
  obtain ⟨hst, rfl⟩ | ⟨hrs, drv, rc, data, rfl, hop⟩ := releaseResults_cases h
  · have hready := hst.resolve_left hopen
    exact ⟨Relation.ReflTransGen.refl, hready, fun _ => rfl, by simp [hready], rfl⟩
  · exact ⟨Effects.one (.free hrs hop), rfl, by simp [hrs], fun _ => rfl, rfl⟩

/-! ### The calls -/

/-- The frame of the calls that begin with the guard for an open connection. -/
theorem guarded_ok {A : Type} {closed : World σ δ ρ × A} {a : A}
    {run : World σ δ ρ × Bool → Except Fault (World σ δ ρ × A)}
    (h : (if w.con.state = .invalid then .ok closed else releaseResults D w >>= run)
      = .ok (w', a)) :
    (w.con.state = .invalid ∧ closed = (w', a)) ∨
      ∃ w₁ b, w.con.state ≠ .invalid ∧ releaseResults D w = .ok (w₁, b) ∧
        run (w₁, b) = .ok (w', a) := by
  by_cases hinv : w.con.state = .invalid
  · rw [if_pos hinv] at h
    exact .inl ⟨hinv, Except.ok.inj h⟩
  · rw [if_neg hinv] at h
    obtain ⟨⟨w₁, b⟩, hrel, h⟩ := bind_eq_ok.mp h
    exact .inr ⟨w₁, b, hinv, hrel, h⟩

theorem guarded_effects {A : Type} {closed : World σ δ ρ × A} {a : A}
    {run : World σ δ ρ × Bool → Except Fault (World σ δ ρ × A)}
    (hclosed : Effects D strict bulk w closed.1)
    (hrun : ∀ w₁ b, w.con.state ≠ .invalid → Released D strict bulk w w₁ →
      run (w₁, b) = .ok (w', a) → Effects D strict bulk w₁ w')
    (h : (if w.con.state = .invalid then .ok closed else releaseResults D w >>= run)
      = .ok (w', a)) : Effects D strict bulk w w' := by
  rcases guarded_ok h with ⟨-, rfl⟩ | ⟨w₁, b, hinv, hrel, h⟩
  · exact hclosed
  · have hr : Released D strict bulk w w₁ := releaseResults_ok hinv hrel
    exact hr.effects.trans (hrun w₁ b hinv hr h)

theorem dbExecute_effects (hs : w.stmts s = some d)
    (h : dbExecute D w s d = .ok (w', r)) : Effects D strict bulk w w' := by
  refine guarded_effects .refl ?_ h
  intro w₁ b _ hr h
  cases b with
  | false => cases h; exact .refl
  | true =>
    rw [fst_of_pure h]
    exact Effects.one (.execute hr.ready (by rw [hr.stmts]; exact hs))

theorem dbStmtNextResult_effects (hs : w.stmts s = some d)
    (h : dbStmtNextResult D w s d = .ok (w', r)) : Effects D strict bulk w w' := by
  refine guarded_effects .refl ?_ h
  intro w₁ b _ hr h
  have hs₁ : w₁.stmts s = some d := by rw [hr.stmts]; exact hs
  cases b with
  | false => cases h; exact .refl
  | true =>
    cases hop : D.stmtNextResult with
    | none =>
      simp only [hop] at h
      cases h
      exact (Effects.one (.statement hr.ready hs₁)).trans (Effects.one (.error .none))
    | some op =>
      simp only [hop] at h
      rw [fst_of_pure h]
      exact Effects.one (.stmtNextResult hr.ready hs₁ hop)

/-- Nothing is left over in `rs.statement` when the connection is ready. -/
abbrev NoLeftover (w : World σ δ ρ) : Prop := w.con.state = .ready → w.con.rs.statement = none

theorem Released.noLeftover (hr : Released D strict bulk w w') (hopen : w.con.state ≠ .invalid)
    (hw : NoLeftover w) : w'.con.rs.statement = none := by
  cases hst : w.con.state with
  | invalid => exact absurd hst hopen
  | ready => rw [hr.same hst]; exact hw hst
  | resultSet => exact hr.statement hst

/-- What an answer leaves as it was, and the state the driver answers with. -/
theorem answered_frame (w : World σ δ ρ) (a : σ × DbError × RsData ρ) :
    (w.answered a).1.drv = a.1 ∧ (w.answered a).1.log = w.log ∧ (w.answered a).1.freed = w.freed ∧
      (w.answered a).1.con.rs.statement = w.con.rs.statement := by
  unfold World.answered
  split
  split
  · split <;> exact ⟨rfl, rfl, rfl, rfl⟩
  · exact ⟨rfl, rfl, rfl, rfl⟩

theorem dbQuery_effects {text : Bytes} (hw : strict → NoLeftover w)
    (h : dbQuery D w text len = .ok (w', r)) :
    Effects D strict bulk w w' ∧ (strict → NoLeftover w') := by
  rcases guarded_ok h with ⟨hinv, hclosed⟩ | ⟨w₁, b, hinv, hrel, h⟩
  · cases hclosed
    refine ⟨Effects.one (.error .fatal), fun _ hready => ?_⟩
    rw [show (w.setError .fatal).con.state = w.con.state from rfl, hinv] at hready
    cases hready
  · have hr : Released D strict bulk w w₁ := releaseResults_ok hinv hrel
    have hnone : strict → w₁.con.rs.statement = none := fun hst => hr.noLeftover hinv (hw hst)
    cases b with
    | false =>
      cases h
      exact ⟨hr.effects.trans (Effects.one (.error .fatal)), fun hst _ => hnone hst⟩
    | true =>
      rw [fst_of_pure h]
      refine ⟨hr.effects.trans (Effects.one (.query hr.ready hnone)), fun hst _ => ?_⟩
      rw [(answered_frame _ _).2.2.2]
      exact hnone hst

theorem dbNextResult_effects (hw : strict → NoLeftover w)
    (h : dbNextResult D w = .ok (w', r)) : Effects D strict bulk w w' := by
  refine guarded_effects (Effects.one (.error .fatal)) ?_ h
  intro w₁ b hinv hr h
  cases b with
  | false =>
    cases h
    exact Effects.one (.error .fatal)
  | true =>
    cases hop : D.nextResult with
    | none =>
      simp only [hop] at h
      cases h
      exact Effects.one (.error .none)
    | some op =>
      simp only [hop] at h
      rw [fst_of_pure h]
      exact Effects.one (.nextResult hr.ready (fun hst => hr.noLeftover hinv (hw hst)) hop)

theorem dbMoreResults_effects : Effects D strict bulk w (dbMoreResults D w).1 := by
  unfold dbMoreResults
  split
  · rename_i op hstate hop
    exact Effects.one (.moreResults hstate hop)
  · exact .refl

theorem dbFetchRow_effects {r : Option (List (Option Bytes))} (h : dbFetchRow D w = .ok (w', r)) :
    Effects D strict bulk w w' := by
  unfold dbFetchRow at h
  by_cases hstate : w.con.state = .resultSet
  · rw [if_neg (not_not.mpr hstate)] at h
    by_cases hempty : w.con.rs.nrows = 0 ∨ w.con.rs.nfields = 0
    · rw [if_pos hempty] at h
      cases h
      exact .refl
    · rw [if_neg hempty] at h
      cases hop : D.fetchRow with
      | none => simp only [hop] at h; cases h
      | some op =>
        simp only [hop] at h
        split at h
        · cases h
        · rename_i drv rc values hrow
          split at h
          · cases h
            exact Effects.one (.fetchRow hstate hop hrow)
          · split at h
            · cases h
            · cases h
              exact Effects.one (.fetchRow hstate hop hrow)
  · rw [if_pos hstate] at h
    cases h
    exact .refl

theorem dbPrepare_effects : Effects D strict bulk w (dbPrepare D w query).1 := by
  unfold dbPrepare
  by_cases hinv : w.con.state = .invalid
  · rw [if_pos hinv]
  · rw [if_neg hinv]
    rcases hop : D.prepare w.drv query with ⟨drv, rc, d⟩
    by_cases hrc : rc = 0
    · subst hrc
      exact Effects.one (.prepared hinv hop)
    · simp only [ne_eq, hrc, not_false_eq_true, if_true]
      exact (Effects.one (.prepareFailed hinv hop hrc)).trans (Effects.one (.error .fatal))

theorem dbBindParam_effects {s len : ℕ} (hs : w.stmts s = some d) :
    Effects D strict bulk w (dbBindParam D w s d len).1 := by
  unfold dbBindParam
  by_cases hinv : w.con.state = .invalid
  · rw [if_pos hinv]
  · rw [if_neg hinv]
    exact Effects.one (.bindParam hinv hs rfl)

theorem dbBindResult_effects {s len : ℕ} (hs : w.stmts s = some d) :
    Effects D strict bulk w (dbBindResult D w s d len).1 := by
  unfold dbBindResult
  by_cases hinv : w.con.state = .invalid
  · rw [if_pos hinv]
  · rw [if_neg hinv]
    exact Effects.one (.bindResult hinv hs rfl)

theorem dbFreeResults_effects {rc : ℤ} (h : dbFreeResults D w = .ok (w', rc)) :
    Effects D strict bulk w w' := by
  unfold dbFreeResults at h
  cases hstate : w.con.state with
  | invalid | ready => simp only [hstate] at h; cases h; exact .refl
  | resultSet =>
    simp only [hstate] at h
    obtain ⟨drv, data, hop, rfl⟩ := dbFreeResultsInt_ok h
    exact Effects.one (.free hstate hop)

theorem dbClose_effects {rc : ℤ} (hs : w.stmts s = some d)
    (hw : strict → w.con.state = .ready → w.con.rs.statement ≠ some s)
    (h : dbClose D w s d = .ok (w', rc)) : Effects D strict bulk w w' := by
  refine guarded_effects .refl ?_ h
  intro w₁ b hinv hr h
  have hclean : strict → w₁.con.rs.statement ≠ some s := by
    intro hst
    cases hstate : w.con.state with
    | invalid => exact absurd hstate hinv
    | ready => rw [hr.same hstate]; exact hw hst hstate
    | resultSet => rw [hr.statement hstate]; simp
  cases b with
  | false => cases h; exact .refl
  | true =>
    simp only [hr.ready, if_true, reduceCtorEq, if_false, false_and] at h
    rw [fst_of_pure h]
    exact Effects.one (.close hr.ready (by rw [hr.stmts]; exact hs) hclean)

theorem dbConnectionClose_effects {rc : ℤ} (h : dbConnectionClose D w = .ok (w', rc)) :
    Effects D strict bulk w w' := by
  refine guarded_effects .refl ?_ h
  intro w₁ b _ hr h
  rw [fst_of_pure h]
  exact Effects.one (.disconnect hr.ready)

theorem dbConnectionReconnect_effects {rc : ℤ} (h : dbConnectionReconnect D w = .ok (w', rc)) :
    Effects D strict bulk w w' := by
  unfold dbConnectionReconnect at h
  cases hop : D.reconnect with
  | none =>
    simp only [hop] at h
    cases h
    exact .refl
  | some op =>
    simp only [hop] at h
    refine guarded_effects .refl ?_ h
    intro w₁ b _ hr h
    split at h <;>
      · rw [fst_of_pure h]
        exact Effects.one (.reconnect hr.ready hop (by simp))

theorem dbConnectionFree_effects (h : dbConnectionFree D w = .ok w') :
    Effects D strict bulk w w' := by
  unfold dbConnectionFree at h
  by_cases hinv : w.con.state = .invalid
  · rw [if_pos hinv] at h
    cases h
    exact Effects.book .dealloc
  · rw [if_neg hinv] at h
    obtain ⟨⟨w₁, rc⟩, hclose, h⟩ := bind_eq_ok.mp h
    cases h
    exact (dbConnectionClose_effects hclose).trans (Effects.book .dealloc)

/-! ### The bulk calls -/

theorem dbDescribe_effects (hopen : w.con.state ≠ .invalid) :
    Effects D strict bulk w (dbDescribe D w).1 := by
  unfold dbDescribe
  cases D.describe with
  | none => exact .refl
  | some op => exact Effects.book (.describe hopen)

theorem dbBulkInsertInit_effects {malloc : Option (ℕ → UInt8)} {rc : ℤ}
    (hbulk : bulk) (h : dbBulkInsertInit D w query len malloc = .ok (w', rc)) :
    Effects D strict bulk w w' := by
  refine guarded_effects .refl ?_ h
  intro w₁ b _ hr h
  have hd : Effects D strict bulk w₁ (dbDescribe D w₁).1 :=
    dbDescribe_effects (by rw [hr.ready]; simp)
  cases b with
  | false => cases h; exact .refl
  | true =>
    simp only [if_true] at h
    -- The ways out of the function, in order: no capabilities, a prefix too long,
    -- no memory, and the buffer set up.
    split at h
    · cases h; exact hd
    · split at h
      · cases h; exact hd
      · split at h
        · rw [fst_of_pure h]
          exact hd.trans (Effects.book (.bulk hbulk _ _ _ _ _ _ _))
        · split at h
          · cases h
          · rw [fst_of_pure h]
            exact hd.trans (Effects.book (.bulk hbulk _ _ _ _ _ _ _))

theorem dbBulkCommit_effects {isLast r : Bool} (hbulk : bulk) (hw : strict → NoLeftover w)
    (h : dbBulkCommit D w isLast = .ok (w', r)) :
    Effects D strict bulk w w' ∧ (strict → NoLeftover w') := by
  unfold dbBulkCommit at h
  split at h
  · have hcount : Effects D strict bulk w
        { w with con.bulkCommitCnt := (w.con.bulkCommitCnt + w.con.bulkCnt) % 2 ^ 32 } :=
      Effects.book (.bulk hbulk _ _ _ _ _ _ _)
    simp only at h
    split at h
    · obtain ⟨⟨w₁, rs⟩, hq, h⟩ := bind_eq_ok.mp h
      have hw₁ : strict → NoLeftover
          { w with con.bulkCommitCnt := (w.con.bulkCommitCnt + w.con.bulkCnt) % 2 ^ 32 } := hw
      obtain ⟨heff, hclean⟩ := dbQuery_effects hw₁ hq
      simp only at h
      split at h
      · cases h
        exact ⟨hcount.trans heff, hclean⟩
      · rw [fst_of_pure h]
        exact ⟨(hcount.trans heff).trans (Effects.book (.bulk hbulk _ _ _ _ _ _ _)), hclean⟩
    · cases h
      exact ⟨hcount, hw⟩
  · cases h
    exact ⟨Relation.ReflTransGen.refl, hw⟩

theorem dbBulkDoInsert_effects {isLast : Bool} {rc : ℤ} (hbulk : bulk)
    (hw : strict → NoLeftover w) (h : dbBulkDoInsert D w isLast = .ok (w', rc)) :
    Effects D strict bulk w w' ∧ (strict → NoLeftover w') := by
  unfold dbBulkDoInsert at h
  split at h
  · cases h
    exact ⟨Relation.ReflTransGen.refl, hw⟩
  · obtain ⟨⟨w₁, rs⟩, hq, h⟩ := bind_eq_ok.mp h
    obtain ⟨heff, hclean⟩ := dbQuery_effects hw hq
    simp only at h
    split at h
    · cases h
      exact ⟨heff, hclean⟩
    · obtain ⟨⟨w₂, committed⟩, hcommit, h⟩ := bind_eq_ok.mp h
      obtain ⟨heff₂, hclean₂⟩ := dbBulkCommit_effects hbulk hclean hcommit
      cases committed with
      | false => cases h; exact ⟨heff.trans heff₂, hclean₂⟩
      | true =>
        rw [fst_of_pure h]
        exact ⟨(heff.trans heff₂).trans (Effects.book (.bulk hbulk _ _ _ _ _ _ _)), hclean₂⟩

theorem dbBulkAppend_effects {rc : ℤ} (hbulk : bulk)
    (h : dbBulkAppend w query len = .ok (w', rc)) : Effects D strict bulk w w' := by
  unfold dbBulkAppend at h
  simp only at h
  split at h
  · cases h
  · rw [fst_of_pure h]
    exact Effects.book (.bulk hbulk _ _ _ _ _ _ _)

theorem dbBulkInsertNext_effects {rc : ℤ} (hbulk : bulk)
    (hw : strict → NoLeftover w) (h : dbBulkInsertNext D w query len = .ok (w', rc)) :
    Effects D strict bulk w w' := by
  refine guarded_effects .refl ?_ h
  intro w₁ b hinv hr h
  have hnone : strict → NoLeftover w₁ := fun hst _ => hr.noLeftover hinv (hw hst)
  cases b with
  | false => cases h; exact .refl
  | true =>
    simp only [if_true] at h
    split at h
    · cases h; exact .refl
    · by_cases hfit : w₁.con.bulkPtr + len + 1 + (if w₁.con.bulkCnt > 0 then 1 else 0)
          > w₁.con.bulkBuflen
      · rw [if_pos hfit] at h
        split at h
        · cases h; exact .refl
        · obtain ⟨⟨w₂, rc₂⟩, hins, h⟩ := bind_eq_ok.mp h
          have heff := (dbBulkDoInsert_effects hbulk hnone hins).1
          split at h
          · cases h; exact heff
          · exact heff.trans (dbBulkAppend_effects hbulk h)
      · rw [if_neg hfit] at h
        exact dbBulkAppend_effects hbulk h

theorem dbBulkInsertDone_effects {rc : ℤ} (hbulk : bulk) (hw : strict → NoLeftover w)
    (h : dbBulkInsertDone D w = .ok (w', rc)) : Effects D strict bulk w w' := by
  obtain ⟨⟨w₁, rc₁⟩, hins, h⟩ := bind_eq_ok.mp h
  have heff := (dbBulkDoInsert_effects hbulk hw hins).1
  simp only at h
  split at h
  · cases h
    exact heff
  · rw [fst_of_pure h]
    exact heff.trans (Effects.book (.bulk hbulk _ _ _ _ _ _ _))

/-! ### All calls -/

theorem stmt_ok (h : w.stmt s = .ok d) : w.stmts s = some d := by
  unfold World.stmt at h
  split at h
  · cases h
  · rename_i d' hs
    cases h
    exact hs

theorem answer_ok {A : Type} {x : Except Fault (World σ δ ρ × A)} {answer : A → DbRet} {r : DbRet}
    (h : (x >>= fun p => pure (p.1, answer p.2)) = .ok (w', r)) : ∃ a, x = .ok (w', a) := by
  obtain ⟨⟨w₁, a⟩, hx, h⟩ := bind_eq_ok.mp h
  cases h
  exact ⟨a, hx⟩

/-- **A call is a chain of effects**, a strict one where the caller keeps its promise. -/
theorem dbCall_effects {c : DbCall} {r : DbRet} (hw : strict → Clean w c)
    (h : dbCall D w c = .ok (w', r)) : Effects D strict c.isBulk w w' := by
  cases c with
  | prepare query => rw [fst_of_pure h]; exact dbPrepare_effects
  | moreResults => rw [fst_of_pure h]; exact dbMoreResults_effects
  | bindParam s len =>
    obtain ⟨d, hs, h⟩ := bind_eq_ok.mp h
    rw [fst_of_pure h]
    exact dbBindParam_effects (stmt_ok hs)
  | bindResult s len =>
    obtain ⟨d, hs, h⟩ := bind_eq_ok.mp h
    rw [fst_of_pure h]
    exact dbBindResult_effects (stmt_ok hs)
  | execute s =>
    obtain ⟨d, hs, h⟩ := bind_eq_ok.mp h
    obtain ⟨_, h⟩ := answer_ok h
    exact dbExecute_effects (stmt_ok hs) h
  | stmtNextResult s =>
    obtain ⟨d, hs, h⟩ := bind_eq_ok.mp h
    obtain ⟨_, h⟩ := answer_ok h
    exact dbStmtNextResult_effects (stmt_ok hs) h
  | fetchRow =>
    obtain ⟨_, h⟩ := answer_ok h
    exact dbFetchRow_effects h
  | query text len =>
    obtain ⟨_, h⟩ := answer_ok h
    exact (dbQuery_effects hw h).1
  | nextResult =>
    obtain ⟨_, h⟩ := answer_ok h
    exact dbNextResult_effects hw h
  | freeResults =>
    obtain ⟨_, h⟩ := answer_ok h
    exact dbFreeResults_effects h
  | close s =>
    obtain ⟨d, hs, h⟩ := bind_eq_ok.mp h
    obtain ⟨_, h⟩ := answer_ok h
    exact dbClose_effects (stmt_ok hs) hw h
  | bulkInsertInit query len malloc =>
    obtain ⟨_, h⟩ := answer_ok h
    exact dbBulkInsertInit_effects rfl h
  | bulkInsertNext query len =>
    obtain ⟨_, h⟩ := answer_ok h
    exact dbBulkInsertNext_effects rfl hw h
  | bulkInsertDone =>
    obtain ⟨_, h⟩ := answer_ok h
    exact dbBulkInsertDone_effects rfl hw h
  | connectionReconnect =>
    obtain ⟨_, h⟩ := answer_ok h
    exact dbConnectionReconnect_effects h
  | connectionClose =>
    obtain ⟨_, h⟩ := answer_ok h
    exact dbConnectionClose_effects h
  | connectionFree =>
    obtain ⟨_, hex, h⟩ := bind_eq_ok.mp h
    rw [fst_of_pure h]
    exact dbConnectionFree_effects hex

end Chains

section Step

variable {D : Driver σ δ ρ} {w w' : World σ δ ρ} {c : DbCall} {r : DbRet}

/-- A call that returns was made on a connection that is still allocated. -/
theorem dbCall_of_dbStep (h : dbStep D w c = .ok (w', r)) :
    w.freed = false ∧ dbCall D w c = .ok (w', r) := by
  unfold dbStep at h
  split at h
  · cases h
  · rename_i hfreed
    exact ⟨Bool.eq_false_iff.mpr hfreed, h⟩

theorem dbStep_effects (strict : Prop) (hw : strict → Clean w c)
    (h : dbStep D w c = .ok (w', r)) : Effects D strict c.isBulk w w' :=
  dbCall_effects hw (dbCall_of_dbStep h).2

end Step

end Sysbench
