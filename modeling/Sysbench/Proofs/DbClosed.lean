/-
A closed connection stays closed and silent.

Two ways lead to `DB_CONN_INVALID`: `db_connection_close`, which calls the driver's
`disconnect`, and a reconnect that failed for good, which does not.  Both are effects
made on a ready connection, and no effect but setting the error code is possible on
an invalid one, so nothing leads out and nothing reaches the driver any more.  The
entry points guard themselves one by one; `dbStep_effects` has been through them all.
-/
import Sysbench.Model.MysqlDriver
import Sysbench.Proofs.DbEffects

namespace Sysbench

open Runs

variable {σ δ ρ : Type} {D : Driver σ δ ρ} {strict bulk : Prop} {w w' : World σ δ ρ}
  {log : List DriverOp}

/-! ### At most one disconnect -/

/-- An open connection was never disconnected, an invalid one at most once. -/
def DisconnectedOnce (w : World σ δ ρ) : Prop :=
  w.log.count .disconnect ≤ if w.con.state = .invalid then 1 else 0

theorem DisconnectedOnce.record {op : DriverOp} (hw : DisconnectedOnce w)
    (hopen : w.con.state ≠ .invalid) (hlog : w'.log = w.log ++ [op]) (hne : op ≠ .disconnect) :
    DisconnectedOnce w' := by
  unfold DisconnectedOnce at *
  rw [if_neg hopen] at hw
  rw [hlog, List.count_append, List.count_singleton]
  have hone : (if (op == DriverOp.disconnect) = true then 1 else 0) = 0 := by simp [hne]
  omega

theorem disconnectedOnce_effect (hw : DisconnectedOnce w) (h : Effect D strict w w') :
    DisconnectedOnce w' := by
  cases h with
  | free hstate _ | moreResults hstate _ | fetchRow hstate _ _ | close hstate _ _
  | reconnect hstate _ _ =>
    exact hw.record (by simp [hstate]) rfl (by simp)
  | error e | statement hstate _ => exact hw
  | execute hstate _ | stmtNextResult hstate _ _ | query hstate _ | nextResult hstate _ _ =>
    exact hw.record (by simp [hstate]) (answered_frame _ _).2.1 (by simp)
  | prepareFailed hstate _ _ | prepared hstate _ | bindParam hstate _ _ | bindResult hstate _ _ =>
    exact hw.record hstate rfl (by simp)
  | disconnect hstate =>
    -- The one effect that counts: it is made on a connection never disconnected before.
    have hzero : w.log.count .disconnect = 0 := by
      unfold DisconnectedOnce at hw
      rw [if_neg (by simp [hstate])] at hw
      omega
    show (w.log ++ [DriverOp.disconnect]).count .disconnect ≤ _
    rw [List.count_append, hzero]
    simp

theorem disconnectedOnce_book (hw : DisconnectedOnce w) (h : Bookkeeping bulk w w') :
    DisconnectedOnce w' := by
  cases h with
  | bulk | dealloc => exact hw
  | describe hstate => exact hw.record hstate rfl (by simp)

/-! ### Nothing after the end -/

/-- `w` is invalid, with `log` and `drv` as they are. -/
structure Silent (log : List DriverOp) (drv : σ) (w : World σ δ ρ) : Prop where
  invalid : w.con.state = .invalid
  log : w.log = log
  drv : w.drv = drv

theorem silent_effect {drv : σ} (hw : Silent log drv w)
    (h : Effect D strict w w') : Silent log drv w' := by
  have hinv := hw.invalid
  cases h with
  | error e => exact ⟨hw.invalid, hw.log, hw.drv⟩
  | prepareFailed hstate _ _ | prepared hstate _ | bindParam hstate _ _ | bindResult hstate _ _ =>
    exact absurd hinv hstate
  | free hstate _ | execute hstate _ | stmtNextResult hstate _ _ | statement hstate _
  | query hstate _ | nextResult hstate _ _ | moreResults hstate _ | fetchRow hstate _ _
  | close hstate _ _ | reconnect hstate _ _ | disconnect hstate =>
    rw [hinv] at hstate; cases hstate

theorem silent_book {drv : σ} (hw : Silent log drv w)
    (h : Bookkeeping bulk w w') : Silent log drv w' := by
  cases h with
  | bulk | dealloc => exact ⟨hw.invalid, hw.log, hw.drv⟩
  | describe hstate => exact absurd hw.invalid hstate

/-- On an invalid connection only the caller's own handles can be at fault. -/
theorem dbCall_invalid_error {c : DbCall} {f : Fault} (hinv : w.con.state = .invalid)
    (h : dbCall D w c = .error f) : f = .danglingStmt := by
  have hstmt : ∀ {s}, w.stmt s = .error f → f = .danglingStmt := by
    intro s hs
    unfold World.stmt at hs
    split at hs
    · cases hs
      rfl
    · cases hs
  cases c with
  | prepare query | moreResults => cases h
  | bindParam s len | bindResult s len =>
    rcases bind_eq_error.mp h with hs | ⟨d, _, hd⟩
    · exact hstmt hs
    · cases hd
  | execute s | stmtNextResult s | close s =>
    rcases bind_eq_error.mp h with hs | ⟨d, _, hd⟩
    · exact hstmt hs
    · simp only [dbExecute, dbStmtNextResult, dbClose, if_pos hinv] at hd
      cases hd
  | fetchRow | query text len | nextResult | freeResults | bulkInsertInit query len malloc
  | bulkInsertNext query len | connectionClose | connectionFree =>
    -- The guard of the entry point.
    simp [dbCall, dbFetchRow, dbQuery, dbNextResult, dbFreeResults, dbBulkInsertInit,
      dbBulkInsertNext, dbConnectionClose, dbConnectionFree, hinv] at h
    cases h
  | bulkInsertDone =>
    -- No guard of its own: with rows pending it fails in `db_query`'s.
    rw [dbCall, dbBulkInsertDone, dbBulkDoInsert] at h
    by_cases hcnt : w.con.bulkCnt = 0
    · rw [if_pos hcnt] at h
      cases h
    · rw [if_neg hcnt, dbQuery, if_pos hinv] at h
      cases h
  | connectionReconnect =>
    cases hop : D.reconnect with
    | none | some op =>
      simp [dbCall, dbConnectionReconnect, hop, hinv] at h
      cases h

/-! ### Runs -/

theorem disconnectedOnce_step {c : DbCall} {r : DbRet} (hw : DisconnectedOnce w)
    (h : dbStep D w c = .ok (w', r)) : DisconnectedOnce w' :=
  (dbStep_effects False False.elim h).invariant disconnectedOnce_effect
    disconnectedOnce_book hw

theorem silent_step {drv : σ} {c : DbCall} {r : DbRet}
    (hw : Silent log drv w) (h : dbStep D w c = .ok (w', r)) : Silent log drv w' :=
  (dbStep_effects False False.elim h).invariant silent_effect silent_book hw

/-- **No driver call after close.**  In every state of every run the driver has been
asked to disconnect at most once; from an invalid one on, no sequence of calls reaches
the driver or makes the connection valid again. -/
theorem invalid_connection_is_silent (D : Driver σ δ ρ) {drv : σ} {w₀ w : World σ δ ρ}
    (hcreate : dbConnectionCreate D drv = some w₀)
    (hrun : Reach (dbStep D) (fun _ _ => True) w₀ w) :
    w.log.count .disconnect ≤ 1 ∧
    (w.con.state = .invalid →
      (∀ w', Reach (dbStep D) (fun _ _ => True) w w' →
        w'.con.state = .invalid ∧ w'.log = w.log ∧ w'.drv = w.drv) ∧
      ∀ c f, dbStep D w c = .error f → f = .danglingConn ∨ f = .danglingStmt) := by
  have hstart : DisconnectedOnce w₀ := by
    obtain rfl := dbConnectionCreate_some hcreate
    exact Nat.zero_le _
  have hw : DisconnectedOnce w := hrun.invariant hstart fun hw _ h => disconnectedOnce_step hw h
  refine ⟨?_, fun hinv => ⟨?_, ?_⟩⟩
  · unfold DisconnectedOnce at hw
    split at hw <;> omega
  · intro w' hrun'
    have hs : Silent w.log w.drv w' :=
      hrun'.invariant ⟨hinv, rfl, rfl⟩ fun hw _ h => silent_step hw h
    exact ⟨hs.invalid, hs.log, hs.drv⟩
  · intro c f h
    unfold dbStep at h
    split at h
    · cases h
      exact .inl rfl
    · exact .inr (dbCall_invalid_error hinv h)

theorem closed_mysql_connection_is_silent :
    let D := mysqlDriver { dryRun := false, usePs := true, ignoredErrors := [] }
    ∃ w₀ w r, dbConnectionCreate D (MysqlState.init fun _ => .empty) = some w₀ ∧
      dbStep D w₀ .connectionClose = .ok (w, r) ∧ w.con.state = .invalid ∧
      w.log.count .disconnect ≤ 1 ∧
      ∀ w', Reach (dbStep D) (fun _ _ => True) w w' → w'.log = w.log := by
  intro D
  obtain ⟨w₀, w, r, hcreate, hclose, hinv⟩ :
      ∃ w₀ w r, dbConnectionCreate D (MysqlState.init fun _ => .empty) = some w₀ ∧
        dbStep D w₀ .connectionClose = .ok (w, r) ∧ w.con.state = .invalid :=
    ⟨_, _, _, rfl, rfl, rfl⟩
  have hsilent := invalid_connection_is_silent D hcreate (Reach.next Reach.refl trivial hclose)
  exact ⟨w₀, w, r, hcreate, hclose, hinv, hsilent.1,
    fun w' hrun => ((hsilent.2 hinv).1 w' hrun).2.1⟩

end Sysbench
