/-
Who releases a result set of the MySQL driver.

`owned` replays the client library's events and keeps the `MYSQL_RES` that is out: a
second result, a double release and the end of the connection are violations while
one is out.  Released is what `rs->ptr` says, and `mysql_drv_free_results` looks at
`rs->statement` first: with a server-side statement there it takes `rs->ptr` for
nothing of its own and clears it.

`db_execute` leaves its statement in `rs->statement` when there is no result set to
free later.  A text query then stores its result next to a statement that has nothing
to do with it, and the result is lost; and `db_close` of that statement leaves the
pointer dangling.  Callers who do neither (`Clean`) are safe, in every run.
-/
import Sysbench.Model.MysqlDriver
import Sysbench.Proofs.DbEffects

namespace Sysbench

open Runs

/-! ### The monitor -/

/-- One event, given the result that is out; `none` once something went wrong. -/
def MysqlEvent.own : Option (Option ℕ) → MysqlEvent → Option (Option ℕ)
  | some none, .storeResult res => some (some res)
  | some (some _), .storeResult _ => none
  | some held, .freeResult res => if held = some res then some none else none
  | some (some r), .stmtStoreResult _ n => if n > 0 then none else some (some r)
  | some (some _), .close => none
  | held, _ => held

def owned (events : List MysqlEvent) : Option (Option ℕ) := events.foldl MysqlEvent.own (some none)

theorem owned_append (events : List MysqlEvent) (e : MysqlEvent) :
    owned (events ++ [e]) = e.own (owned events) := by
  rw [owned, List.foldl_append]
  rfl

variable {events : List MysqlEvent} {m : MysqlState}

theorem owned_sessionClose (h : owned events = some none) :
    owned (events ++ [.close]) = some none := by
  rw [owned_append, h]
  rfl

theorem owned_reconnect (h : owned m.events = some none) :
    owned (mysqlDrvReconnect m).1.events = some none := by
  unfold mysqlDrvReconnect
  simp only
  split
  · exact owned_sessionClose h
  · show owned (m.events ++ [.close] ++ [.realConnect]) = _
    rw [owned_append, owned_sessionClose h]
    rfl

/-- Every result was released once, before the next one and before the connection's
end, and `rs.statement` is a statement that has not been closed. -/
def ResultsOwned (w : World MysqlState MysqlStmt ℕ) : Prop :=
  owned w.drv.events ≠ none ∧ ∀ s, w.con.rs.statement = some s → w.stmts s ≠ none

/-! ### What the driver's operations hand out -/

variable {args : MysqlArgs} {m : MysqlState} {rs : RsData ℕ}

/-- An answer to the layer: the result that is out is in `rs->ptr`, and the answer says
that there is one. -/
structure Handed (answer : MysqlState × DbError × RsData ℕ) : Prop where
  held : owned answer.1.events = some answer.2.2.ptr
  result : answer.2.2.ptr ≠ none → answer.2.1 = .none ∧ answer.2.2.counter = .read

theorem Handed.nothing {e : DbError} {rs : RsData ℕ}
    (hm : owned m.events = some none) (hrs : rs.ptr = none) : Handed (m, e, rs) :=
  ⟨by rw [hm, hrs], fun hne => absurd hrs hne⟩

theorem handed_checkError {errno : ℕ} (hm : owned m.events = some none) (hrs : rs.ptr = none) :
    Handed (checkError args m errno rs) ∧ (checkError args m errno rs).2.2.ptr = none := by
  unfold checkError
  split
  · split
    · exact ⟨Handed.nothing (owned_reconnect hm) hrs, hrs⟩
    · exact ⟨Handed.nothing hm hrs, hrs⟩
  · exact ⟨Handed.nothing hm hrs, hrs⟩

theorem handed_storeResult (hm : owned m.events = some none) (hrs : rs.ptr = none) :
    Handed (mysqlStoreResult args m rs) := by
  unfold mysqlStoreResult
  simp only
  split
  · split
    · split
      · exact Handed.nothing hm hrs
      · exact Handed.nothing hm hrs
    · exact (handed_checkError (m := m.tick) hm hrs).1
  · refine ⟨?_, fun _ => ⟨rfl, rfl⟩⟩
    show owned (m.events ++ [_]) = _
    rw [owned_append, hm]
    rfl

theorem handed_query (hdry : args.dryRun = false) (hm : owned m.events = some none)
    (hrs : rs.ptr = none) : Handed (mysqlDrvQuery args m rs) := by
  unfold mysqlDrvQuery
  simp only [hdry, Bool.false_eq_true, if_false]
  split
  · exact (handed_checkError (m := m.tick) hm hrs).1
  · exact handed_storeResult hm hrs

theorem handed_nextResult (hdry : args.dryRun = false) (hm : owned m.events = some none)
    (hrs : rs.ptr = none) : Handed (mysqlDrvNextResult args m rs) := by
  unfold mysqlDrvNextResult
  simp only [hdry, Bool.false_eq_true, if_false]
  split
  · exact (handed_checkError (m := m.tick) hm hrs).1
  · exact Handed.nothing hm hrs
  · exact handed_storeResult hm hrs

variable {h : ℕ}

/-- A server-side statement keeps its result: nothing is handed out in `rs->ptr`. -/
theorem handed_stmtStoreResult (hm : owned m.events = some none) (hrs : rs.ptr = none) :
    Handed (mysqlStmtStoreResult args m h rs) ∧
      (mysqlStmtStoreResult args m h rs).2.2.ptr = none := by
  have hlog : owned (m.events ++ [.stmtStoreResult h m.answer.fieldCount]) = some none := by
    rw [owned_append, hm]
    rfl
  unfold mysqlStmtStoreResult
  simp only
  split
  · exact handed_checkError hm hrs
  · split
    · exact ⟨Handed.nothing hlog hrs, hrs⟩
    · exact ⟨Handed.nothing hlog hrs, hrs⟩

variable {d : MysqlStmt}

theorem handed_execute (hdry : args.dryRun = false) (hm : owned m.events = some none)
    (hrs : rs.ptr = none) :
    Handed (mysqlDrvExecute args m d rs) ∧
      (d.emulated = false → (mysqlDrvExecute args m d rs).2.2.ptr = none) := by
  unfold mysqlDrvExecute
  simp only [hdry, Bool.false_eq_true, if_false]
  cases hemu : d.emulated with
  | true => exact ⟨handed_query hdry hm hrs, nofun⟩
  | false =>
    simp only [Bool.false_eq_true, if_false, forall_const]
    split
    · exact ⟨Handed.nothing hm hrs, hrs⟩
    · split
      · exact handed_checkError hm hrs
      · exact handed_stmtStoreResult hm hrs

theorem handed_stmtNextResult (hdry : args.dryRun = false) (hm : owned m.events = some none)
    (hrs : rs.ptr = none) :
    Handed (mysqlDrvStmtNextResult args m d rs) ∧
      (d.emulated = false → (mysqlDrvStmtNextResult args m d rs).2.2.ptr = none) := by
  unfold mysqlDrvStmtNextResult
  simp only [hdry, Bool.false_eq_true, if_false]
  cases hemu : d.emulated with
  | true => exact ⟨handed_nextResult hdry hm hrs, nofun⟩
  | false =>
    simp only [Bool.false_eq_true, if_false, forall_const]
    split
    · exact ⟨Handed.nothing hm hrs, hrs⟩
    · split
      · exact handed_checkError hm hrs
      · exact ⟨Handed.nothing hm hrs, hrs⟩
      · exact handed_stmtStoreResult hm hrs

theorem handed_freeResult (hm : owned m.events = some rs.ptr) :
    owned (mysqlFreeResult m rs).1.events = some none ∧ (mysqlFreeResult m rs).2.2.ptr = none := by
  unfold mysqlFreeResult
  cases hptr : rs.ptr with
  | none => exact ⟨by rw [hm, hptr], hptr⟩
  | some res =>
    refine ⟨?_, rfl⟩
    show owned (m.events ++ [.freeResult res]) = _
    rw [owned_append, hm, hptr]
    exact if_pos rfl

/-! ### The invariant -/

/-- The result that is out is the one in `rs->ptr`, and `mysql_drv_free_results` will
find it: no server-side statement stands in `rs->statement` next to it. -/
structure Owns (w : World MysqlState MysqlStmt ℕ) : Prop where
  held : owned w.drv.events = some w.con.rs.ptr
  idle : w.con.state ≠ .resultSet → w.con.rs.ptr = none
  serverSide : ∀ s d, w.con.rs.statement = some s → w.stmts s = some d → d.emulated = false →
    w.con.rs.ptr = none
  live : ∀ s, w.con.rs.statement = some s → w.stmts s ≠ none
  fresh : ∀ s, w.stmts s ≠ none → s < w.nextStmt

variable {w w' : World MysqlState MysqlStmt ℕ}

theorem Owns.ready_held (hw : Owns w) (hstate : w.con.state = .ready) :
    owned w.drv.events = some none ∧ w.con.rs.ptr = none := by
  have hnone := hw.idle (by simp [hstate])
  exact ⟨by rw [hw.held, hnone], hnone⟩

variable {answer : MysqlState × DbError × RsData ℕ}

/-- The layer takes over what the driver handed out. -/
theorem Owns.answered (hw : Owns w) (ha : Handed answer)
    (hserver : ∀ s d, w.con.rs.statement = some s → w.stmts s = some d → d.emulated = false →
      answer.2.2.ptr = none) : Owns (w.answered answer).1 := by
  unfold World.answered
  simp only
  split
  · split
    · exact ⟨ha.held, fun hc => absurd rfl hc, hserver, hw.live, hw.fresh⟩
    · rename_i hread
      refine ⟨ha.held, fun _ => ?_, hserver, hw.live, hw.fresh⟩
      exact not_not.mp fun hc => hread (ha.result hc).2
  · rename_i he
    refine ⟨ha.held, fun _ => ?_, hserver, hw.live, hw.fresh⟩
    exact not_not.mp fun hc => he (ha.result hc).1

theorem Owns.keep (hw : Owns w) (hevents : owned w'.drv.events = owned w.drv.events)
    (hrs : w'.con.rs.toRsData = w.con.rs.toRsData)
    (hstmt : w'.con.rs.statement = w.con.rs.statement) (hstate : w'.con.state = w.con.state)
    (hstmts : ∀ s, w.con.rs.statement = some s → w'.stmts s = w.stmts s)
    (hfresh : ∀ s, w'.stmts s ≠ none → s < w'.nextStmt) : Owns w' := by
  have hptr : w'.con.rs.ptr = w.con.rs.ptr := congrArg RsData.ptr hrs
  refine ⟨?_, ?_, ?_, ?_, hfresh⟩
  · rw [hevents, hptr, hw.held]
  · rw [hstate, hptr]
    exact hw.idle
  · intro s d hs hd
    rw [hstmt] at hs
    rw [hstmts s hs] at hd
    rw [hptr]
    exact hw.serverSide s d hs hd
  · intro s hs
    rw [hstmt] at hs
    rw [hstmts s hs]
    exact hw.live s hs

theorem Owns.same (hw : Owns w) (hevents : owned w'.drv.events = owned w.drv.events)
    (hrs : w'.con.rs.toRsData = w.con.rs.toRsData)
    (hstmt : w'.con.rs.statement = w.con.rs.statement) (hstate : w'.con.state = w.con.state)
    (hstmts : w'.stmts = w.stmts) (hnext : w'.nextStmt = w.nextStmt) : Owns w' := by
  refine hw.keep hevents hrs hstmt hstate (fun s _ => by rw [hstmts]) ?_
  rw [hstmts, hnext]
  exact hw.fresh

/-! ### Every effect of a clean caller keeps it -/

variable {drv : MysqlState} {rc : ℤ}

theorem owns_free {data : RsData ℕ} (hdry : args.dryRun = false) (hw : Owns w)
    (h : mysqlDrvFreeResults args w.drv w.statementRef w.con.rs.toRsData = some (drv, rc, data)) :
    Owns (w.freedResults drv data) := by
  have hfreed : owned drv.events = some none ∧ data.ptr = none := by
    unfold mysqlDrvFreeResults at h
    simp only [hdry, Bool.false_eq_true, if_false] at h
    split at h
    · cases h
    · have hres := handed_freeResult hw.held
      rw [Option.some.inj h] at hres
      exact hres
    · rename_i d href
      cases hemu : d.emulated with
      | true =>
        have hres := handed_freeResult hw.held
        rw [if_pos hemu] at h
        rw [Option.some.inj h] at hres
        exact hres
      | false =>
        -- The statement owns its result: nothing is out, and `rs->ptr` may be cleared.
        rw [if_neg (by simp [hemu])] at h
        obtain ⟨rfl, -, rfl⟩ := Option.some.inj h
        obtain ⟨s, hs, hd⟩ : ∃ s, w.con.rs.statement = some s ∧ w.stmts s = some d := by
          unfold World.statementRef at href
          cases hst : w.con.rs.statement with
          | none => simp [hst] at href
          | some s =>
            cases hd : w.stmts s with
            | none => simp [hst, hd] at href
            | some d' =>
              simp only [hst, hd, StmtRef.live.injEq] at href
              exact ⟨s, rfl, href ▸ hd⟩
        refine ⟨?_, rfl⟩
        show owned (w.drv.events ++ [_]) = _
        rw [owned_append, hw.held, hw.serverSide s d hs hd hemu]
        rfl
  refine ⟨?_, fun _ => hfreed.2, ?_, ?_, hw.fresh⟩
  · show owned drv.events = some data.ptr
    rw [hfreed.1, hfreed.2]
  · intro s d hs
    cases hs
  · intro s hs
    cases hs

variable {s : ℕ}

/-- A statement is executed: it stays in `rs->statement`, and it is alive. -/
theorem owns_stmt_answered {op : DriverOp} (hw : Owns w) (hstate : w.con.state = .ready)
    (hs : w.stmts s = some d) (ha : Handed answer)
    (hserver : d.emulated = false → answer.2.2.ptr = none) :
    Owns (((w.setStatement (some s)).record op).answered answer).1 := by
  have hptr := (hw.ready_held hstate).2
  have hw' : Owns ((w.setStatement (some s)).record op) := by
    refine ⟨hw.held, hw.idle, fun _ _ _ _ _ => hptr, ?_, hw.fresh⟩
    rintro s' ⟨⟩
    show w.stmts s ≠ none
    rw [hs]
    simp
  refine hw'.answered ha ?_
  rintro s' d' ⟨⟩ hd' hemu
  have hd : w.stmts s = some d' := hd'
  rw [hs] at hd
  cases hd
  exact hserver hemu

/-- A text query of a clean caller: `rs->statement` is null. -/
theorem owns_query_answered {op : DriverOp} (hw : Owns w) (hclean : w.con.rs.statement = none)
    (ha : Handed answer) : Owns ((w.record op).answered answer).1 := by
  have hw' : Owns (w.record op) := hw.same rfl rfl rfl rfl rfl rfl
  refine hw'.answered ha fun s d hs => ?_
  have hnone : w.con.rs.statement = some s := hs
  rw [hclean] at hnone
  cases hnone

/-- Events that neither hand out nor take back a result. -/
theorem owned_passive {e : MysqlEvent} (he : ∀ held, e.own (some held) = some held) :
    owned (events ++ [e]) = owned events := by
  rw [owned_append]
  cases owned events with
  | none => cases e <;> rfl
  | some held => exact he held

theorem owned_stmtInit : owned (events ++ [.stmtInit h]) = owned events :=
  owned_passive fun held => by cases held <;> rfl

theorem owned_stmtClose : owned (events ++ [.stmtClose h]) = owned events :=
  owned_passive fun held => by cases held <;> rfl

theorem owned_prepare (args : MysqlArgs) (m : MysqlState) :
    owned (mysqlDrvPrepare args m).1.events = owned m.events := by
  unfold mysqlDrvPrepare
  split
  · rfl
  · split
    · split
      · rfl
      · simp only
        split
        · split
          · exact owned_stmtInit
          · show owned (m.events ++ [_] ++ [_]) = _
            rw [owned_stmtClose, owned_stmtInit]
        · exact owned_stmtInit
    · rfl

theorem owned_close (args : MysqlArgs) (m : MysqlState) (d : MysqlStmt) :
    owned (mysqlDrvClose args m d).1.events = owned m.events := by
  unfold mysqlDrvClose
  split
  · rfl
  · split
    · rfl
    · exact owned_stmtClose

theorem owns_prepared {query : Bytes} (hw : Owns w)
    (h : (mysqlDriver args).prepare w.drv query = (drv, 0, d)) :
    Owns { w.record .prepare with
      drv := drv
      stmts := fun s => if s = w.nextStmt then some d else w.stmts s
      nextStmt := w.nextStmt + 1 } := by
  have hp : mysqlDrvPrepare args w.drv = (drv, 0, d) := h
  have hevents := owned_prepare args w.drv
  rw [hp] at hevents
  refine hw.keep hevents rfl rfl rfl ?_ ?_
  · -- `rs->statement` is alive, so it is not the statement just made.
    intro s hs
    have hold : s ≠ w.nextStmt := Nat.ne_of_lt (hw.fresh s (hw.live s hs))
    exact if_neg hold
  · intro s hs
    show s < w.nextStmt + 1
    by_cases hnew : s = w.nextStmt
    · omega
    · have hlt := hw.fresh s (by simpa [hnew] using hs)
      omega

theorem owns_close (hw : Owns w) (hclean : w.con.rs.statement ≠ some s) :
    Owns { w.record (.close s) with
      drv := (mysqlDrvClose args w.drv d).1
      stmts := fun s' => if s' = s then none else w.stmts s' } := by
  refine hw.keep (owned_close args w.drv d) rfl rfl rfl ?_ ?_
  · intro s' hs'
    refine if_neg ?_
    rintro rfl
    exact hclean hs'
  · intro s' hs'
    refine hw.fresh s' fun hc => hs' ?_
    show (if s' = s then none else w.stmts s') = none
    rw [hc, ite_self]

theorem mysqlDrvBindParam_stmt {d' : MysqlStmt} {len : ℕ}
    (h : mysqlDrvBindParam args m d len = (drv, rc, d')) : d' = d ∧ drv.events = m.events := by
  unfold mysqlDrvBindParam at h
  split at h
  · cases h; exact ⟨rfl, rfl⟩
  · split at h
    · cases h; exact ⟨rfl, rfl⟩
    · split at h
      · cases h; exact ⟨rfl, rfl⟩
      · split at h
        · cases h; exact ⟨rfl, rfl⟩
        · split at h
          · cases h; exact ⟨rfl, rfl⟩
          · cases h; exact ⟨rfl, rfl⟩

theorem owns_bindParam {len : ℕ} {d' : MysqlStmt} (hw : Owns w) (hs : w.stmts s = some d)
    (h : (mysqlDriver args).bindParam w.drv d len = (drv, rc, d')) :
    Owns { w.record (.bindParam s) with
      drv := drv, stmts := fun s' => if s' = s then some d' else w.stmts s' } := by
  obtain ⟨rfl, hevents⟩ := mysqlDrvBindParam_stmt h
  have hsame : (fun s' => if s' = s then some d' else w.stmts s') = w.stmts := by
    funext s'
    by_cases hc : s' = s
    · rw [if_pos hc, hc, hs]
    · rw [if_neg hc]
  exact hw.same (congrArg owned hevents) rfl rfl rfl hsame rfl

theorem mysqlDrvBindResult_events (h : mysqlDrvBindResult args m d = (drv, rc)) :
    drv.events = m.events := by
  unfold mysqlDrvBindResult at h
  split at h
  · cases h; rfl
  · split at h
    · cases h; rfl
    · split at h
      · cases h; rfl
      · cases h; rfl

theorem mysqlDrvFetchRow_events {rs : RsData ℕ} {values : List (Option Bytes)}
    (h : mysqlDrvFetchRow args m rs = some (drv, rc, values)) : drv.events = m.events := by
  unfold mysqlDrvFetchRow at h
  split at h
  · cases h; rfl
  · split at h
    · cases h
    · split at h
      · cases h; rfl
      · cases h; rfl

theorem mysqlDrvMoreResults_events :
    (mysqlDrvMoreResults args m).1.events = m.events := by
  unfold mysqlDrvMoreResults
  split <;> rfl

theorem owns_session (hw : Owns w) (hstate : w.con.state = .ready)
    (hevents : owned w'.drv.events = some none) (hrs : w'.con.rs = w.con.rs)
    (hstmts : w'.stmts = w.stmts) (hnext : w'.nextStmt = w.nextStmt) : Owns w' := by
  have hptr := (hw.ready_held hstate).2
  refine ⟨?_, ?_, ?_, ?_, ?_⟩
  · rw [hevents, hrs, hptr]
  · intro _
    rw [hrs, hptr]
  · intro _ _ _ _ _
    rw [hrs, hptr]
  · rw [hrs, hstmts]
    exact hw.live
  · rw [hstmts, hnext]
    exact hw.fresh

theorem owns_effect (hdry : args.dryRun = false) (hw : Owns w)
    (h : Effect (mysqlDriver args) True w w') : Owns w' := by
  cases h with
  | free hstate hfree => exact owns_free hdry hw hfree
  | error e => exact hw.same rfl rfl rfl rfl rfl rfl
  | execute hstate hs =>
    obtain ⟨hm, hrs⟩ := hw.ready_held hstate
    obtain ⟨ha, hserver⟩ := handed_execute hdry hm hrs
    exact owns_stmt_answered hw hstate hs ha hserver
  | stmtNextResult hstate hs hop =>
    obtain ⟨hm, hrs⟩ := hw.ready_held hstate
    cases hop
    obtain ⟨ha, hserver⟩ := handed_stmtNextResult hdry hm hrs
    exact owns_stmt_answered hw hstate hs ha hserver
  | statement hstate hs =>
    refine ⟨hw.held, hw.idle, fun _ _ _ _ _ => (hw.ready_held hstate).2, ?_, hw.fresh⟩
    rintro s' ⟨⟩
    show w.stmts _ ≠ none
    rw [hs]
    simp
  | query hstate hclean =>
    obtain ⟨hm, hrs⟩ := hw.ready_held hstate
    exact owns_query_answered hw (hclean trivial) (handed_query hdry hm hrs)
  | nextResult hstate hclean hop =>
    obtain ⟨hm, hrs⟩ := hw.ready_held hstate
    cases hop
    exact owns_query_answered hw (hclean trivial) (handed_nextResult hdry hm hrs)
  | moreResults hstate hop =>
    cases hop
    exact hw.same (congrArg owned mysqlDrvMoreResults_events) rfl rfl rfl rfl rfl
  | fetchRow hstate hop hrow =>
    cases hop
    exact hw.same (congrArg owned (mysqlDrvFetchRow_events hrow)) rfl rfl rfl rfl rfl
  | prepareFailed hstate hp hrc =>
    refine hw.same ?_ rfl rfl rfl rfl rfl
    have hevents := owned_prepare args w.drv
    rw [show mysqlDrvPrepare args w.drv = _ from hp] at hevents
    exact hevents
  | prepared hstate hp => exact owns_prepared hw hp
  | bindParam hstate hs hb => exact owns_bindParam hw hs hb
  | bindResult hstate hs hb =>
    exact hw.same (congrArg owned (mysqlDrvBindResult_events hb)) rfl rfl rfl rfl rfl
  | close hstate hs hclean => exact owns_close hw (hclean trivial)
  | reconnect hstate hop hs =>
    cases hop
    exact owns_session hw hstate (owned_reconnect (hw.ready_held hstate).1) rfl rfl rfl
  | disconnect hstate =>
    refine owns_session hw hstate ?_ rfl rfl rfl
    show owned (mysqlDrvDisconnect args w.drv).1.events = _
    rw [mysqlDrvDisconnect, if_neg (by simp [hdry])]
    exact owned_sessionClose (hw.ready_held hstate).1

theorem owns_book {bulk : Prop} (hw : Owns w) (h : Bookkeeping bulk w w') : Owns w' := by
  cases h with
  | bulk | describe hstate | dealloc => exact hw.same rfl rfl rfl rfl rfl rfl

/-! ### Runs -/

theorem owns_create {server : ℕ → Answer}
    (h : dbConnectionCreate (mysqlDriver args) (MysqlState.init server) = some w) : Owns w := by
  obtain rfl := dbConnectionCreate_some h
  refine ⟨?_, fun _ => rfl, nofun, nofun, ?_⟩
  · show owned (mysqlDrvConnect args (MysqlState.init server)).1.events = some none
    unfold mysqlDrvConnect
    split
    · rfl
    · split <;> rfl
  · intro s hs
    exact absurd rfl hs

/-- **Results are released.**  In every run of a caller that makes no text query while a
statement is left over in `rs->statement`, and does not close that statement, each
result is released exactly once before the next one and before the connection's end,
and `rs->statement` never refers to a closed statement. -/
theorem clean_runs_release_results {server : ℕ → Answer} {w₀ : World MysqlState MysqlStmt ℕ}
    (hdry : args.dryRun = false)
    (hcreate : dbConnectionCreate (mysqlDriver args) (MysqlState.init server) = some w₀)
    (hrun : Reach (dbStep (mysqlDriver args)) Clean w₀ w) : ResultsOwned w := by
  have hw : Owns w := by
    refine hrun.invariant (owns_create hcreate) fun hw hclean h => ?_
    exact (dbStep_effects True (fun _ => hclean) h).invariant (owns_effect hdry) owns_book hw
  exact ⟨by rw [hw.held]; simp, hw.live⟩

/-- The bytes of `DO 0`, a statement without a result set. -/
def doText : Bytes := [68, 79, 32, 48]

/-- The bytes of `SELECT 1`. -/
def selectText : Bytes := [83, 69, 76, 69, 67, 84, 32, 49]

/-- A server with a row for the query it is sent in call `n`. -/
def serverWithRow (n : ℕ) : ℕ → Answer := fun k =>
  if k = 1 ∨ k = n then { Answer.empty with null := false, fieldCount := 1, numRows := 1 }
  else Answer.empty

/-- A query, its result released, and the end of the connection. -/
theorem queried_and_freed_result_is_released :
    let D := mysqlDriver { dryRun := false, usePs := true, ignoredErrors := [] }
    ∃ w₀ w₁ w₂ w₃ r₁ r₂ r₃,
      dbConnectionCreate D (MysqlState.init (serverWithRow 2)) = some w₀ ∧
      dbStep D w₀ (.query selectText 8) = .ok (w₁, r₁) ∧ dbStep D w₁ .freeResults = .ok (w₂, r₂) ∧
      dbStep D w₂ .connectionClose = .ok (w₃, r₃) ∧ ResultsOwned w₃ := by
  intro D
  obtain ⟨w₀, w₁, w₂, w₃, r₁, r₂, r₃, hcreate, hclean, h₁, h₂, h₃⟩ :
      ∃ w₀ w₁ w₂ w₃ r₁ r₂ r₃,
        dbConnectionCreate D (MysqlState.init (serverWithRow 2)) = some w₀ ∧
        w₀.con.rs.statement = none ∧
        dbStep D w₀ (.query selectText 8) = .ok (w₁, r₁) ∧ dbStep D w₁ .freeResults = .ok (w₂, r₂) ∧
        dbStep D w₂ .connectionClose = .ok (w₃, r₃) :=
    ⟨_, _, _, _, _, _, _, rfl, rfl, rfl, rfl, rfl⟩
  have hquery : Clean w₀ (.query selectText 8) := fun _ => hclean
  have hfree : Clean w₁ .freeResults := trivial
  have hclose : Clean w₂ .connectionClose := trivial
  have hrun : Reach (dbStep D) Clean w₀ w₃ :=
    Reach.next (Reach.next (Reach.next Reach.refl hquery h₁) hfree h₂) hclose h₃
  exact ⟨w₀, w₁, w₂, w₃, r₁, r₂, r₃, hcreate, h₁, h₂, h₃,
    clean_runs_release_results rfl hcreate hrun⟩

/-- A prepared statement without a result set, and then a query with one: the result is
gone when the connection is closed.  Closing the statement leaves it in `rs->statement`. -/
theorem query_after_execute_loses_result :
    let D := mysqlDriver { dryRun := false, usePs := true, ignoredErrors := [] }
    ∃ w₀ w w' rs rs', dbConnectionCreate D (MysqlState.init (serverWithRow 6)) = some w₀ ∧
      trace (dbStep D) w₀ [.prepare doText, .execute 0, .query selectText 8, .freeResults,
        .connectionClose] = .ok (w, rs) ∧ ¬ ResultsOwned w ∧
      trace (dbStep D) w₀ [.prepare doText, .execute 0, .close 0] = .ok (w', rs') ∧
      ¬ ResultsOwned w' :=
  ⟨_, _, _, _, _, rfl, rfl, fun h => h.1 rfl, rfl, fun h => h.2 0 rfl rfl⟩

end Sysbench
