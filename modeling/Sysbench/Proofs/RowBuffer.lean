/-
The row buffer of a connection.

`db_fetch_row` allocates `rs.row.values` when it is first called on a result set and uses the
array again from then on, while the driver writes as many values as `rs.nfields` says at the
time.  So the array has to go whenever the number of fields can change.  Every operation that
lets the driver write `rs` is made on a ready connection, and the way there from a result set
is `db_free_results_int`, which drops the array even if the driver fails.
-/
import Sysbench.Model.MysqlDriver
import Sysbench.Proofs.DbEffects

namespace Sysbench

open Runs

variable {σ δ ρ : Type} {D : Driver σ δ ρ} {strict bulk : Prop} {w w' : World σ δ ρ}

/-- There is an array of values only in a result set, and it has one entry for each field. -/
def RowBuffer (w : World σ δ ρ) : Prop :=
  ∀ size, w.con.rs.rowValues = some size → w.con.state = .resultSet ∧ size = w.con.rs.nfields

/-! ### One effect -/

theorem rowBuffer_of_none (h : w.con.rs.rowValues = none) : RowBuffer w := by
  intro size hsize
  rw [h] at hsize
  cases hsize

theorem RowBuffer.eq_none (hw : RowBuffer w) (hstate : w.con.state ≠ .resultSet) :
    w.con.rs.rowValues = none := by
  cases hvalues : w.con.rs.rowValues with
  | none => rfl
  | some size => exact absurd (hw size hvalues).1 hstate

theorem RowBuffer.same (hw : RowBuffer w) (hrs : w'.con.rs = w.con.rs)
    (hstate : w'.con.state = w.con.state) : RowBuffer w' := by
  unfold RowBuffer
  rw [hrs, hstate]
  exact hw

theorem answered_rowValues (w : World σ δ ρ) (a : σ × DbError × RsData ρ) :
    (w.answered a).1.con.rs.rowValues = w.con.rs.rowValues := by
  unfold World.answered
  split
  split
  · split <;> rfl
  · rfl

theorem rowBuffer_answered (h : w.con.rs.rowValues = none) (a : σ × DbError × RsData ρ) :
    RowBuffer (w.answered a).1 := by
  apply rowBuffer_of_none
  rw [answered_rowValues, h]

theorem rowBuffer_effect (hw : RowBuffer w) (h : Effect D strict w w') : RowBuffer w' := by
  cases h with
  | free hstate hfree => exact rowBuffer_of_none rfl
  | error e | moreResults hstate hop | prepareFailed hstate hp hrc | prepared hstate hp
  | bindParam hstate hs hb | bindResult hstate hs hb | close hstate hs hclean =>
    exact hw.same rfl rfl
  | execute hstate hs | stmtNextResult hstate hs hop | query hstate hclean
  | nextResult hstate hclean hop =>
    apply rowBuffer_answered
    exact hw.eq_none (by simp [hstate])
  | statement hstate hs | disconnect hstate | reconnect hstate hop hs =>
    exact rowBuffer_of_none (hw.eq_none (by simp [hstate]))
  | fetchRow hstate hop hrow =>
    intro size hsize
    have hgetD : w.con.rs.rowValues.getD w.con.rs.nfields = size := Option.some.inj hsize
    refine ⟨hstate, ?_⟩
    show size = w.con.rs.nfields
    cases hvalues : w.con.rs.rowValues with
    | none => simpa [hvalues] using hgetD.symm
    | some old =>
      -- The array is used again; it was made for this result set.
      have hold := (hw old hvalues).2
      simpa [hvalues, hold] using hgetD.symm

theorem rowBuffer_book (hw : RowBuffer w) (h : Bookkeeping bulk w w') : RowBuffer w' := by
  cases h with
  | bulk hbulk cnt buflen buffer ptr values ccnt cmax | describe hopen | dealloc =>
    exact hw.same rfl rfl

/-! ### Fetching -/

/-- The driver's `fetch_row` writes at most `rs.nfields` values. -/
def FillsFields (D : Driver σ δ ρ) : Prop :=
  ∀ op drv data drv' rc values, D.fetchRow = some op → op drv data = some (drv', rc, values) →
    values.length ≤ data.nfields

/-- The connection after the driver has been asked for a row. -/
def World.fetched (w : World σ δ ρ) (drv : σ) : World σ δ ρ :=
  { w.record .fetchRow with
    drv := drv, con.rs.rowValues := some (w.con.rs.rowValues.getD w.con.rs.nfields) }

theorem dbFetchRow_eq {op : σ → RsData ρ → Option (σ × ℤ × List (Option Bytes))} {drv : σ} {rc : ℤ}
    {values : List (Option Bytes)} (hstate : w.con.state = .resultSet)
    (hsome : ¬(w.con.rs.nrows = 0 ∨ w.con.rs.nfields = 0)) (hop : D.fetchRow = some op)
    (hrow : op w.drv w.con.rs.toRsData = some (drv, rc, values)) :
    dbFetchRow D w = if rc ≠ 0 then .ok (w.fetched drv, none)
      else if w.con.rs.rowValues.getD w.con.rs.nfields < values.length then .error .outOfBounds
      else .ok (w.fetched drv, some values) := by
  unfold dbFetchRow
  rw [if_neg (not_not.mpr hstate), if_neg hsome]
  simp only [hop, hrow]
  rfl

theorem RowBuffer.getD_nfields (hw : RowBuffer w) :
    w.con.rs.rowValues.getD w.con.rs.nfields = w.con.rs.nfields := by
  cases hvalues : w.con.rs.rowValues with
  | none => rfl
  | some size => exact (hw size hvalues).2

theorem dbFetchRow_inBounds (hw : RowBuffer w) (hfills : FillsFields D) :
    dbFetchRow D w ≠ .error .outOfBounds := by
  intro h
  by_cases hstate : w.con.state = .resultSet
  · by_cases hempty : w.con.rs.nrows = 0 ∨ w.con.rs.nfields = 0
    · rw [dbFetchRow, if_neg (not_not.mpr hstate), if_pos hempty] at h
      cases h
    · cases hop : D.fetchRow with
      | none => simp [dbFetchRow, hstate, hempty, hop] at h
      | some op =>
        cases hrow : op w.drv w.con.rs.toRsData with
        | none => simp [dbFetchRow, hstate, hempty, hop, hrow] at h
        | some answer =>
          obtain ⟨drv, rc, values⟩ := answer
          have hlen := hfills op _ _ drv rc values hop hrow
          rw [dbFetchRow_eq hstate hempty hop hrow, hw.getD_nfields] at h
          split at h
          · cases h
          · rw [if_neg (Nat.not_lt_of_le hlen)] at h
            cases h
  · rw [dbFetchRow, if_pos hstate] at h
    cases h

theorem mysqlDriver_fillsFields (args : MysqlArgs) : FillsFields (mysqlDriver args) := by
  intro op drv data drv' rc values hop hrow
  cases hop
  unfold mysqlDrvFetchRow at hrow
  split at hrow
  · cases hrow
    simp
  · split at hrow
    · cases hrow
    · split at hrow
      · cases hrow
        simp
      · cases hrow
        simp

/-! ### Runs -/

theorem rowBuffer_create {drv : σ} (h : dbConnectionCreate D drv = some w) : RowBuffer w := by
  obtain rfl := dbConnectionCreate_some h
  exact rowBuffer_of_none rfl

theorem rowBuffer_reach {w₀ : World σ δ ρ} (h₀ : RowBuffer w₀)
    (hrun : Reach (dbStep D) (fun _ _ => True) w₀ w) : RowBuffer w := by
  refine hrun.invariant h₀ ?_
  intro w w' c r hw _ hstep
  exact (dbStep_effects False (fun hc => hc.elim) hstep).invariant rowBuffer_effect
    rowBuffer_book hw

/-- **The row buffer has the size of the result set.**  Whatever calls were made on a connection
and whatever its driver answered, there is an array of values only while there is a result
set, with one entry for each of its fields; so a driver that fills in the fields of a row
stays within the array. -/
theorem row_buffer_fits_fields (D : Driver σ δ ρ) {drv : σ} {w₀ w : World σ δ ρ}
    (hcreate : dbConnectionCreate D drv = some w₀)
    (hrun : Reach (dbStep D) (fun _ _ => True) w₀ w) :
    (∀ size, w.con.rs.rowValues = some size →
      w.con.state = .resultSet ∧ size = w.con.rs.nfields) ∧
    (FillsFields D → dbFetchRow D w ≠ .error .outOfBounds) := by
  have hw : RowBuffer w := rowBuffer_reach (rowBuffer_create hcreate) hrun
  exact ⟨hw, dbFetchRow_inBounds hw⟩

/-- A server that answers every query with one row of two fields. -/
def twoFields : MysqlState :=
  .init fun _ => { Answer.empty with
    null := false, fieldCount := 2, numRows := 1, row := some fun _ => none }

theorem row_buffer_fits_two_fields :
    ∃ w₀ w, dbConnectionCreate (mysqlDriver ⟨false, true, []⟩) twoFields = some w₀ ∧
      Reach (dbStep (mysqlDriver ⟨false, true, []⟩)) (fun _ _ => True) w₀ w ∧
      w.con.rs.rowValues = some 2 ∧ w.con.rs.nfields = 2 ∧
      dbFetchRow (mysqlDriver ⟨false, true, []⟩) w ≠ .error .outOfBounds := by
  obtain ⟨w₀, hcreate⟩ : ∃ w₀,
      dbConnectionCreate (mysqlDriver ⟨false, true, []⟩) twoFields = some w₀ := ⟨_, rfl⟩
  have hinit : Reach (dbStep (mysqlDriver ⟨false, true, []⟩)) (fun _ _ => True) w₀ w₀ := .refl
  have hstart := hcreate
  cases hstart
  have hreach := (hinit.next (c := .query [] 0) trivial rfl).next (c := .fetchRow) trivial rfl
  have hfits := row_buffer_fits_fields (mysqlDriver ⟨false, true, []⟩) hcreate hreach
  exact ⟨_, _, hcreate, hreach, rfl, rfl, hfits.2 (mysqlDriver_fillsFields _)⟩

end Sysbench
