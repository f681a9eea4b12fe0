/-
The rows that `db_fetch_row` returns on a PostgreSQL connection.

The number of the next row stands in `rs->row.ptr`, and only `pgsql_drv_free_results` puts it
back to 0.  So the cursor is right because a result set is always freed before the driver is
asked for another one: `CursorInv` says that the cursor is at 0 unless there is a result set,
and that a result set is one the driver can free.
-/
import Sysbench.Model.PgsqlDriver
import Sysbench.Proofs.RowBuffer

namespace Sysbench

open List Runs PgResults

variable {usePs : Bool} {strict bulk : Prop} {w w' : World State PgsqlStmt Pgres}
  {answer : State × DbError × RsData Pgres} {res : PgResult}

/-! ### The driver -/

/-- `rs` describes the result set `res`. -/
structure Describes (rs : RsData Pgres) (res : PgResult) : Prop where
  ptr : rs.ptr.map (fun pgres => pgres.reply.tuples) = some res
  nrows : rs.nrows = res.rows.length
  nfields : rs.nfields = res.nfields

/-- What a query leaves: the cursor where it was, and a result set only where the server has
answered with one. -/
structure Queried (m : State) (answer : State × DbError × RsData Pgres) : Prop where
  rowPtr : answer.1.rowPtr = m.rowPtr
  result : answer.2.1 = .none → answer.2.2.counter = .read →
    m.reply.status = .tuplesOk ∧ Describes answer.2.2 m.reply.tuples

theorem queried_send (origin : Origin) (m : State) (rs : RsData Pgres) :
    Queried m (send origin m rs) := by
  unfold send pgsqlCheckStatus State.obtain
  simp only
  split
  · rename_i hstatus
    exact ⟨rfl, fun _ _ => ⟨hstatus, rfl, rfl, rfl⟩⟩
  · refine ⟨rfl, fun _ hread => ?_⟩
    simp only at hread
    split at hread <;> cases hread
  · split
    · exact ⟨rfl, nofun⟩
    · split
      · exact ⟨rfl, nofun⟩
      · split <;> exact ⟨rfl, nofun⟩
  · exact ⟨rfl, nofun⟩

theorem queried_execute (m : State) (stmt : PgsqlStmt) (rs : RsData Pgres) :
    Queried m (pgsqlDrvExecute m stmt rs) := by
  unfold pgsqlDrvExecute
  split
  · exact queried_send .query m rs
  · split
    · exact ⟨rfl, nofun⟩
    · exact queried_send .execute m rs

theorem rowPtr_prepare (usePs : Bool) (m : State) (query : Bytes) :
    (pgsqlDrvPrepare usePs m query).1.rowPtr = m.rowPtr := by
  unfold pgsqlDrvPrepare
  split
  · simp only
    split
    · split <;> rfl
    · rfl
  · rfl

theorem rowPtr_bindParam (m : State) (stmt : PgsqlStmt) (len : ℕ) :
    (pgsqlDrvBindParam m stmt len).1.rowPtr = m.rowPtr := by
  unfold pgsqlDrvBindParam
  split
  · rfl
  · split
    · rfl
    · split
      · rfl
      · split
        · rfl
        · simp only
          split <;> rfl

theorem rowPtr_reconnect (m : State) : (pgsqlDrvReconnect m).1.rowPtr = m.rowPtr := by
  unfold pgsqlDrvReconnect
  split <;> rfl

theorem rowPtr_close (m : State) (stmt : PgsqlStmt) :
    (pgsqlDrvClose m stmt).1.rowPtr = m.rowPtr := by
  unfold pgsqlDrvClose
  split <;> rfl

theorem rowPtr_readFields (ptr : Option Pgres) (values : List (Option Bytes)) :
    ∀ m : State, (values.foldl (readField ptr) m).rowPtr = m.rowPtr := by
  induction values with
  | nil => exact fun m => rfl
  | cons value values ih =>
    intro m
    rw [foldl_cons, ih]
    cases value <;> rfl

/-! ### The cursor -/

structure CursorInv (w : World State PgsqlStmt Pgres) : Prop where
  start : w.con.state ≠ .resultSet → w.drv.rowPtr = 0
  result : w.con.state = .resultSet → ∃ res, Describes w.con.rs.toRsData res

theorem CursorInv.same (hw : CursorInv w) (hstate : w'.con.state = w.con.state)
    (hrs : w'.con.rs.toRsData = w.con.rs.toRsData) (hrow : w'.drv.rowPtr = w.drv.rowPtr) :
    CursorInv w' := by
  refine ⟨?_, ?_⟩
  · rw [hstate, hrow]
    exact hw.start
  · rw [hstate, hrs]
    exact hw.result

/-- Without a result set nothing but the cursor matters. -/
theorem CursorInv.closed (hw : CursorInv w) (hready : w.con.state = .ready)
    (hstate : w'.con.state ≠ .resultSet) (hrow : w'.drv.rowPtr = w.drv.rowPtr) : CursorInv w' := by
  refine ⟨fun _ => ?_, fun hc => absurd hc hstate⟩
  rw [hrow]
  exact hw.start (by simp [hready])

/-- The cursor is at row `k` of the result set `res`. -/
structure CursorAt (res : PgResult) (k : ℕ) (w : World State PgsqlStmt Pgres) : Prop where
  state : w.con.state = .resultSet
  rowPtr : w.drv.rowPtr = k
  describes : Describes w.con.rs.toRsData res

/-- A connection behind an answer of the driver: the result set, if there is one, is the one the
server has answered with, and the cursor is at its start. -/
theorem CursorInv.answered (hw : CursorInv w) (hready : w.con.state = .ready)
    (hq : Queried w.drv answer) :
    CursorInv (w.answered answer).1 ∧
      ((w.answered answer).2 = true →
        w.drv.reply.status = .tuplesOk ∧ CursorAt w.drv.reply.tuples 0 (w.answered answer).1) := by
  obtain ⟨drv, error, data⟩ := answer
  obtain ⟨hrow, hresult⟩ := hq
  have hzero : drv.rowPtr = 0 := hrow.trans (hw.start (by simp [hready]))
  unfold World.answered
  simp only at hresult ⊢
  by_cases hnone : error = .none
  · rw [if_pos hnone]
    by_cases hread : data.counter = .read
    · rw [if_pos hread]
      obtain ⟨hstatus, hdesc⟩ := hresult hnone hread
      exact ⟨⟨fun hc => absurd rfl hc, fun _ => ⟨_, hdesc⟩⟩,
        fun _ => ⟨hstatus, rfl, hzero, hdesc⟩⟩
    · rw [if_neg hread]
      exact ⟨⟨fun _ => hzero, nofun⟩, nofun⟩
  · rw [if_neg hnone]
    refine ⟨⟨fun _ => hzero, fun hc => ?_⟩, nofun⟩
    cases hready.symm.trans hc

theorem CursorInv.freeResults {drv : State} {rc : ℤ} {data : RsData Pgres}
    (hw : CursorInv w) (hstate : w.con.state = .resultSet)
    (h : (pgsqlDriver usePs).freeResults w.drv w.statementRef w.con.rs.toRsData
      = some (drv, rc, data)) : drv.rowPtr = 0 ∧ drv.reply = w.drv.reply := by
  obtain ⟨res, hres⟩ := hw.result hstate
  obtain ⟨pgres, hptr, -⟩ := Option.map_eq_some_iff.mp hres.ptr
  have heq : some (pgsqlDrvFreeResults w.drv w.con.rs.toRsData) = some (drv, rc, data) := h
  rw [pgsqlDrvFreeResults, hptr] at heq
  cases heq
  exact ⟨rfl, rfl⟩

theorem cursorInv_freedResults {drv : State} (hdrv : drv.rowPtr = 0) (data : RsData Pgres) :
    CursorInv (w.freedResults drv data) :=
  ⟨fun _ => hdrv, nofun⟩

theorem cursorInv_effect (hw : CursorInv w) (h : Effect (pgsqlDriver usePs) strict w w') :
    CursorInv w' := by
  cases h with
  | free hstate hfree =>
    exact cursorInv_freedResults (hw.freeResults hstate hfree).1 _
  | error e | statement hstate hs => exact hw.same rfl rfl rfl
  | @execute s d hstate hs =>
    have hset : CursorInv ((w.setStatement (some s)).record (.execute s)) :=
      hw.same rfl rfl rfl
    exact (hset.answered hstate (queried_execute w.drv d w.con.rs.toRsData)).1
  | stmtNextResult hstate hs hop | nextResult hstate hclean hop | moreResults hstate hop =>
    cases hop
  | @query text len hstate hclean =>
    have hrecord : CursorInv (w.record (.query text len)) := hw.same rfl rfl rfl
    exact (hrecord.answered hstate (queried_send .query w.drv w.con.rs.toRsData)).1
  | fetchRow hstate hop hrow =>
    exact ⟨fun hc => absurd hstate hc, fun _ => hw.result hstate⟩
  | prepareFailed hstate hp hrc | prepared hstate hp =>
    refine hw.same rfl rfl ?_
    rw [← rowPtr_prepare usePs w.drv]
    exact congrArg (fun p => p.1.rowPtr) hp.symm
  | bindParam hstate hs hb =>
    refine hw.same rfl rfl ?_
    rw [← rowPtr_bindParam w.drv]
    exact congrArg (fun p => p.1.rowPtr) hb.symm
  | bindResult hstate hs hb => exact hw.same rfl rfl (congrArg (fun p => p.1.rowPtr) hb.symm)
  | close hstate hs hclean => exact hw.same rfl rfl (rowPtr_close _ _)
  | disconnect hstate => exact hw.closed hstate (by simp) rfl
  | reconnect hstate hop hs =>
    cases hop
    exact hw.closed hstate hs (rowPtr_reconnect _)

theorem cursorInv_book (hw : CursorInv w) (h : Bookkeeping bulk w w') : CursorInv w' := by
  cases h with
  | bulk hbulk cnt buflen buffer ptr values ccnt cmax | describe hopen | dealloc =>
    exact hw.same rfl rfl rfl

theorem cursorInv_create {server : ℕ → Reply}
    (h : dbConnectionCreate (pgsqlDriver usePs) (.init server) = some w) : CursorInv w := by
  have hrow : (pgsqlDrvConnect (.init server)).1.rowPtr = 0 := by
    unfold pgsqlDrvConnect
    split <;> rfl
  obtain rfl := dbConnectionCreate_some h
  exact ⟨fun _ => hrow, nofun⟩

theorem cursorInv_reach {w₀ : World State PgsqlStmt Pgres} (h₀ : CursorInv w₀)
    (hrun : Reach (dbStep (pgsqlDriver usePs)) (fun _ _ => True) w₀ w) : CursorInv w := by
  refine hrun.invariant h₀ ?_
  intro w w' c r hw _ hstep
  exact (dbStep_effects False (fun hc => hc.elim) hstep).invariant cursorInv_effect
    cursorInv_book hw

/-! ### A new result set -/

theorem release_cursor {b : Bool} (hw : CursorInv w) (hopen : w.con.state ≠ .invalid)
    (h : releaseResults (pgsqlDriver usePs) w = .ok (w', b)) :
    CursorInv w' ∧ w'.con.state = .ready ∧ w'.drv.reply = w.drv.reply ∧ w'.freed = w.freed := by
  obtain ⟨hst, rfl⟩ | ⟨hrs, drv, rc, data, rfl, hop⟩ := releaseResults_cases h
  · exact ⟨hw, hst.resolve_left hopen, rfl, rfl⟩
  · obtain ⟨hrow, hreply⟩ := hw.freeResults hrs hop
    exact ⟨cursorInv_freedResults hrow _, rfl, hreply, rfl⟩

/-- A connection `v` like the one after the release, and the driver's answer to it. -/
theorem released_cursor {b : Bool} {w₁ v : World State PgsqlStmt Pgres} (hw : CursorInv w)
    (hopen : w.con.state ≠ .invalid) (hrel : releaseResults (pgsqlDriver usePs) w = .ok (w₁, b))
    (hq : Queried w₁.drv answer) (h : v.answered answer = (w', true))
    (hstate : v.con.state = w₁.con.state) (hrs : v.con.rs.toRsData = w₁.con.rs.toRsData)
    (hdrv : v.drv = w₁.drv) (hfreed : v.freed = w₁.freed) :
    w.drv.reply.status = .tuplesOk ∧ CursorAt w.drv.reply.tuples 0 w' ∧ w'.freed = w.freed := by
  obtain ⟨hw₁, hready, hreply, hfreed₁⟩ := release_cursor hw hopen hrel
  have hv : CursorInv v := hw₁.same hstate hrs (by rw [hdrv])
  rw [← hdrv] at hq hreply
  obtain ⟨-, hnew⟩ := hv.answered (hstate.trans hready) hq
  rw [h] at hnew
  obtain ⟨hstatus, hat⟩ := hnew rfl
  have hkept : w'.freed = v.freed := by
    rw [← (answered_frame v answer).2.2.1, h]
  rw [hreply] at hstatus hat
  exact ⟨hstatus, hat, hkept.trans (hfreed.trans hfreed₁)⟩

theorem dbQuery_cursor {text : Bytes} {len : ℕ} (hw : CursorInv w)
    (h : dbQuery (pgsqlDriver usePs) w text len = .ok (w', true)) :
    w.drv.reply.status = .tuplesOk ∧ CursorAt w.drv.reply.tuples 0 w' ∧ w'.freed = w.freed := by
  rcases guarded_ok h with ⟨-, hclosed⟩ | ⟨w₁, b, hinv, hrel, h⟩
  · cases hclosed
  · cases b with
    | false => cases h
    | true =>
      have hq := queried_send .query w₁.drv w₁.con.rs.toRsData
      have hanswered : (w₁.record (.query text len)).answered
          (pgsqlDrvQuery w₁.drv w₁.con.rs.toRsData) = (w', true) := Except.ok.inj h
      exact released_cursor hw hinv hrel hq hanswered rfl rfl rfl rfl

theorem dbExecute_cursor {s : ℕ} {d : PgsqlStmt} (hw : CursorInv w)
    (h : dbExecute (pgsqlDriver usePs) w s d = .ok (w', true)) :
    w.drv.reply.status = .tuplesOk ∧ CursorAt w.drv.reply.tuples 0 w' ∧ w'.freed = w.freed := by
  rcases guarded_ok h with ⟨-, hclosed⟩ | ⟨w₁, b, hinv, hrel, h⟩
  · cases hclosed
  · cases b with
    | false => cases h
    | true =>
      have hq := queried_execute w₁.drv d w₁.con.rs.toRsData
      have hanswered : ((w₁.setStatement (some s)).record (.execute s)).answered
          (pgsqlDrvExecute w₁.drv d w₁.con.rs.toRsData) = (w', true) := Except.ok.inj h
      exact released_cursor hw hinv hrel hq hanswered rfl rfl rfl rfl

/-- The driver has no further results, so a result set comes from a query or a statement. -/
theorem dbCall_cursor {c : DbCall} (hw : CursorInv w)
    (h : dbCall (pgsqlDriver usePs) w c = .ok (w', .result true)) :
    w.drv.reply.status = .tuplesOk ∧ CursorAt w.drv.reply.tuples 0 w' ∧ w'.freed = w.freed := by
  cases c with
  | query text len =>
    obtain ⟨⟨w₁, rs⟩, hquery, h⟩ := bind_eq_ok.mp h
    cases h
    exact dbQuery_cursor hw hquery
  | execute s =>
    obtain ⟨d, -, h⟩ := bind_eq_ok.mp h
    obtain ⟨⟨w₁, rs⟩, hexecute, h⟩ := bind_eq_ok.mp h
    cases h
    exact dbExecute_cursor hw hexecute
  | nextResult =>
    obtain ⟨⟨w₁, rs⟩, hnext, h⟩ := bind_eq_ok.mp h
    cases h
    unfold dbNextResult at hnext
    split at hnext
    · cases hnext
    · obtain ⟨⟨w₂, b⟩, -, hnext⟩ := bind_eq_ok.mp hnext
      cases b with
      | false | true => cases hnext
  | stmtNextResult s =>
    obtain ⟨d, -, h⟩ := bind_eq_ok.mp h
    obtain ⟨⟨w₁, rs⟩, hnext, h⟩ := bind_eq_ok.mp h
    cases h
    unfold dbStmtNextResult at hnext
    split at hnext
    · cases hnext
    · obtain ⟨⟨w₂, b⟩, -, hnext⟩ := bind_eq_ok.mp hnext
      cases b with
      | false | true => cases hnext
  | prepare query => cases h
  | moreResults => cases h
  | bindParam s len | bindResult s len =>
    obtain ⟨d, -, h⟩ := bind_eq_ok.mp h
    cases h
  | close s =>
    obtain ⟨d, -, h⟩ := bind_eq_ok.mp h
    obtain ⟨p, -, h⟩ := bind_eq_ok.mp h
    cases h
  | fetchRow | freeResults | bulkInsertInit query len malloc | bulkInsertNext query len |
    bulkInsertDone | connectionReconnect | connectionClose | connectionFree =>
      obtain ⟨p, -, h⟩ := bind_eq_ok.mp h
      cases h

/-! ### Fetching -/

theorem map_pqGetValue {k : ℕ} (hk : k < res.rows.length) :
    (range res.nfields).map (fun i => pqGetValue (some res) k i) = res.rows[k] := by
  have hwidth : res.rows[k].length = res.nfields := res.width _ (getElem_mem hk)
  refine ext_getElem (by simp [hwidth]) ?_
  intro i hi hi'
  simp [pqGetValue, hk, hi']

theorem toInt_nrows (res : PgResult) : toInt res.rows.length = res.rows.length := by
  rw [toInt, if_pos res.ntuples_lt]

/-- The call of `db_fetch_row` behind `k` others returns row `k`, or NULL behind the last one. -/
theorem CursorAt.fetch (usePs : Bool) {k : ℕ}
    (h : CursorAt res (min k res.rows.length) w) (hbuffer : RowBuffer w)
    (hrows : res.rows ≠ []) (hfields : res.nfields ≠ 0) :
    ∃ w', dbFetchRow (pgsqlDriver usePs) w = .ok (w', res.rows[k]?) ∧ w'.freed = w.freed ∧
      CursorAt res (min (k + 1) res.rows.length) w' := by
  have hsome : ¬(w.con.rs.nrows = 0 ∨ w.con.rs.nfields = 0) := by
    rw [h.describes.nrows, h.describes.nfields, length_eq_zero_iff]
    exact not_or.mpr ⟨hrows, hfields⟩
  have hop : (pgsqlDriver usePs).fetchRow = some pgsqlDrvFetchRow := rfl
  by_cases hlt : k < res.rows.length
  · obtain ⟨drv, hrow, hdrv⟩ : ∃ drv, pgsqlDrvFetchRow w.drv w.con.rs.toRsData
        = some (drv, DbError.none.code, res.rows[k]) ∧ drv.rowPtr = k + 1 := by
      rw [pgsqlDrvFetchRow, h.describes.nrows, toInt_nrows, h.rowPtr,
        Nat.min_eq_left (Nat.le_of_lt hlt), if_neg (by omega), h.describes.ptr,
        h.describes.nfields, map_pqGetValue hlt]
      refine ⟨_, rfl, ?_⟩
      simp only [rowPtr_readFields, h.rowPtr, Nat.min_eq_left (Nat.le_of_lt hlt)]
    have hlen : ¬res.nfields < res.rows[k].length := by
      rw [res.width _ (getElem_mem hlt)]
      exact Nat.lt_irrefl _
    refine ⟨w.fetched drv, ?_, rfl, ?_⟩
    · rw [dbFetchRow_eq h.state hsome hop hrow, if_neg (by simp [DbError.code]),
        hbuffer.getD_nfields, h.describes.nfields, if_neg hlen, getElem?_eq_getElem hlt]
    · rw [Nat.min_eq_left hlt]
      exact ⟨h.state, hdrv, h.describes.ptr, h.describes.nrows, h.describes.nfields⟩
  · -- The cursor stays behind the last row.
    have hend : min (k + 1) res.rows.length = min k res.rows.length := by omega
    have hrow : pgsqlDrvFetchRow w.drv w.con.rs.toRsData
        = some (w.drv, DbError.ignorable.code, []) := by
      rw [pgsqlDrvFetchRow, h.describes.nrows, toInt_nrows, h.rowPtr, if_pos (by omega)]
    refine ⟨w.fetched w.drv, ?_, rfl, ?_⟩
    · rw [dbFetchRow_eq h.state hsome hop hrow, if_pos (by simp [DbError.code]),
        getElem?_eq_none (by omega)]
    · rw [hend]
      exact ⟨h.state, h.rowPtr, h.describes.ptr, h.describes.nrows, h.describes.nfields⟩

theorem CursorAt.fetches (usePs : Bool) (hrows : res.rows ≠ [])
    (hfields : res.nfields ≠ 0) (count : ℕ) :
    ∀ {w : World State PgsqlStmt Pgres} {k : ℕ},
      CursorAt res (min k res.rows.length) w → RowBuffer w → w.freed = false →
      ∃ w', trace (dbStep (pgsqlDriver usePs)) w (replicate count .fetchRow)
        = .ok (w', (range' k count).map fun i => .row res.rows[i]?) := by
  induction count with
  | zero =>
    intro w k _ _ _
    exact ⟨w, rfl⟩
  | succ count ih =>
    intro w k h hbuffer hfreed
    obtain ⟨w₁, hfetch, hfreed₁, h₁⟩ := h.fetch usePs hbuffer hrows hfields
    have hstep : dbStep (pgsqlDriver usePs) w .fetchRow = .ok (w₁, .row res.rows[k]?) := by
      simp [dbStep, hfreed, dbCall, hfetch, bind, Except.bind, pure, Except.pure]
    have hbuffer₁ : RowBuffer w₁ := rowBuffer_reach hbuffer (Reach.refl.next trivial hstep)
    obtain ⟨w', hrest⟩ := ih h₁ hbuffer₁ (hfreed₁.trans hfreed)
    exact ⟨w', trace_cons hstep hrest⟩

/-- **PostgreSQL row iteration.**  After any calls on a connection: when a call returns a result
set with rows and fields, it is the one the server has answered with, and from then on each
call of `db_fetch_row` returns the next of its rows, from the first one on, and NULL behind
the last. -/
theorem pgsql_fetches_rows_in_order (usePs : Bool) (server : ℕ → Reply)
    {w₀ w w₁ : World State PgsqlStmt Pgres} {c : DbCall}
    (hcreate : dbConnectionCreate (pgsqlDriver usePs) (.init server) = some w₀)
    (hrun : Reach (dbStep (pgsqlDriver usePs)) (fun _ _ => True) w₀ w)
    (hcall : dbStep (pgsqlDriver usePs) w c = .ok (w₁, .result true)) :
    w.drv.reply.status = .tuplesOk ∧
      (1 ≤ w.drv.reply.tuples.rows.length → 1 ≤ w.drv.reply.tuples.nfields → ∀ count, ∃ w',
        trace (dbStep (pgsqlDriver usePs)) w₁ (List.replicate count .fetchRow)
          = .ok (w', (List.range count).map fun k => .row w.drv.reply.tuples.rows[k]?)) := by
  have hw : CursorInv w := cursorInv_reach (cursorInv_create hcreate) hrun
  have hbuffer : RowBuffer w₁ :=
    rowBuffer_reach (rowBuffer_create hcreate) (hrun.next trivial hcall)
  obtain ⟨hallocated, hcall⟩ := dbCall_of_dbStep hcall
  obtain ⟨hstatus, hat, hfreed⟩ := dbCall_cursor hw hcall
  refine ⟨hstatus, fun hrows hfields count => ?_⟩
  have hne : w.drv.reply.tuples.rows ≠ [] := ne_nil_of_length_pos hrows
  have hstart : CursorAt w.drv.reply.tuples (min 0 w.drv.reply.tuples.rows.length) w₁ := by
    rwa [Nat.zero_min]
  rw [range_eq_range']
  exact hstart.fetches usePs hne (Nat.ne_of_gt hfields) count hbuffer (hfreed.trans hallocated)

theorem one_lt_int : 1 < 2 ^ 31 := by decide

/-- A table with one column and two rows. -/
def twoRows : Reply where
  connected := true
  status := .tuplesOk
  tuples :=
    { nfields := 1
      rows := [[some [97]], [none]]
      width := by simp
      ntuples_lt := by decide
      nfields_lt := one_lt_int }
  cmdTuples := 0
  sqlState := none
  hasMessage := false

/-- A second result set, after one row of the first has been fetched. -/
theorem pgsql_fetches_two_rows :
    ∃ w₀ w w₁ w',
      dbConnectionCreate (pgsqlDriver true) (.init fun _ => twoRows) = some w₀ ∧
      Reach (dbStep (pgsqlDriver true)) (fun _ _ => True) w₀ w ∧ w.drv.rowPtr = 1 ∧
      dbStep (pgsqlDriver true) w (.query [] 0) = .ok (w₁, .result true) ∧
      trace (dbStep (pgsqlDriver true)) w₁ [.fetchRow, .fetchRow, .fetchRow]
        = .ok (w', [.row (some [some [97]]), .row (some [none]), .row none]) := by
  obtain ⟨w₀, hcreate⟩ : ∃ w₀,
      dbConnectionCreate (pgsqlDriver true) (.init fun _ => twoRows) = some w₀ := ⟨_, rfl⟩
  have hinit : Reach (dbStep (pgsqlDriver true)) (fun _ _ => True) w₀ w₀ := .refl
  have hstart := hcreate
  cases hstart
  have hreach := (hinit.next (c := .query [] 0) trivial rfl).next (c := .fetchRow) trivial rfl
  obtain ⟨-, hfetch⟩ :=
    pgsql_fetches_rows_in_order (c := .query [] 0) true _ hcreate hreach rfl
  obtain ⟨w', htrace⟩ := hfetch (by decide) (by decide) 3
  exact ⟨_, _, _, w', hcreate, hreach, rfl, rfl, htrace⟩

end Sysbench
