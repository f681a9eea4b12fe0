/-
Which runs of the compare driver give back what they have obtained.

The driver holds the `MYSQL` handles of a connection and the `MYSQL_STMT` handles of its
statements; between two calls these are all the handles that are out.  `mysql_drv_prepare`
keeps that up on each of its ways out.  The other calls do not: a failed connect forgets the
handles made so far, result sets and metadata are never freed, `mysql_drv_close` gives the
library a structure of the driver instead of its handles, and a reconnect goes on with
handles that it has just closed.  `StepOk` is what keeps a run away from these.
-/
import Sysbench.Model.CompareHandles
import Sysbench.Proofs.CompareReports

namespace Sysbench.Compare

open List Ledger Runs

variable {args : MysqlArgs} {s s' : HandleState} {out : List (Handle MysqlHandle)}
  {answers : ℕ → ReconnectAnswer} {l : List (Handle MysqlHandle)} {hosts : List ConnectAnswer}

/-! ### What the driver holds -/

def HandleStmt.handles (stmt : HandleStmt) : List (Handle MysqlHandle) :=
  ((stmt.ptr.getD []).filterMap id).map (Prod.mk .mysqlStmt)

namespace HandleState

def connHandles (s : HandleState) : List (Handle MysqlHandle) :=
  (s.conn.getD []).map (Prod.mk .mysql)

def stmtHandles (s : HandleState) : List (Handle MysqlHandle) :=
  s.stmts.flatMap HandleStmt.handles

end HandleState

/-- Between two calls, the handles that are out are those the driver holds, and none is without
a connection.  A statement that is not emulated has a handle for each connection. -/
structure Sound (args : MysqlArgs) (s : HandleState) : Prop where
  owns : s.ledger.Owns (s.connHandles ++ s.stmtHandles)
  closed : s.conn = none → s.stmtHandles = []
  prepared : ∀ stmt ∈ s.stmts, stmt.emulated = false → ∀ l, stmt.ptr = some l → none ∉ l
  dry : args.dryRun = true → s.conn = none

theorem sound_init (args : MysqlArgs) : Sound args HandleState.init where
  owns := owns_empty
  closed := fun _ => rfl
  prepared := nofun
  dry := fun _ => rfl

/-- A call that leaves connection and statements as they are. -/
structure Kept (out : List (Handle MysqlHandle)) (s s' : HandleState) : Prop where
  conn : s'.conn = s.conn
  stmts : s'.stmts = s.stmts
  owns : s'.ledger.Owns out

theorem Sound.kept (h : Sound args s) (hkept : Kept (s.connHandles ++ s.stmtHandles) s s') :
    Sound args s' := by
  obtain ⟨hconn, hstmts, howns⟩ := hkept
  refine ⟨?_, ?_, ?_, ?_⟩
  · rw [HandleState.connHandles, HandleState.stmtHandles, hconn, hstmts]
    exact howns
  · rw [HandleState.stmtHandles, hconn, hstmts]
    exact h.closed
  · rw [hstmts]
    exact h.prepared
  · rw [hconn]
    exact h.dry

theorem Kept.refl (h : s.ledger.Owns out) : Kept out s s := ⟨rfl, rfl, h⟩

variable {kind : MysqlHandle} {number : ℕ}

theorem Kept.use (h : s.ledger.Owns out) (hmem : (kind, number) ∈ out) :
    Kept out s (s.use kind number) :=
  ⟨rfl, rfl, Owns.use h hmem⟩

theorem Kept.setErrno (h : s.ledger.Owns out) (i errno : ℕ) : Kept out s (s.setErrno i errno) :=
  ⟨rfl, rfl, h⟩

variable {s₁ : HandleState}

theorem Kept.trans {s₂ : HandleState} (h₁ : Kept out s s₁) (h₂ : Kept out s₁ s₂) :
    Kept out s s₂ :=
  ⟨h₂.conn.trans h₁.conn, h₂.stmts.trans h₁.stmts, h₂.owns⟩

theorem foldl_release (kind : MysqlHandle) (l : List ℕ) (s : HandleState) :
    l.foldl (fun s number => s.release kind number) s
      = { s with ledger := s.ledger.releaseAll (l.map (Prod.mk kind)) } := by
  induction l generalizing s with
  | nil => rfl
  | cons number l ih => exact ih _

/-! ### Errors -/

/-- The error is one for which `check_error` makes the connections again. -/
def Reconnecting (args : MysqlArgs) (errno : ℕ) : Prop :=
  Ignored args errno ∧ errno ∈ reconnectErrors

theorem not_reconnecting_zero : ¬Reconnecting args 0 := by
  rintro ⟨-, h⟩
  exact absurd h (by decide)

theorem kept_checkError (h : s.ledger.Owns out)
    (hconn : ∀ handle ∈ s.connHandles, handle ∈ out) (herrno : ¬Reconnecting args (s.errnos 0)) :
    Kept out s (checkErrorHandles args answers s).1 := by
  unfold checkErrorHandles
  split
  · exact .refl h
  · exact .refl h
  · rename_i con handles heq
    have hmem : (.mysql, con) ∈ out := by
      refine hconn _ ?_
      rw [HandleState.connHandles, heq]
      exact mem_cons_self
    dsimp only
    split
    · rename_i hignored
      rw [if_neg fun hlost => herrno ⟨(ignored_iff args _).mp hignored, hlost⟩]
      exact .use h hmem
    · exact .use h hmem

/-! ### Text queries -/

/-- The answer obtains no result set, and is no error that makes the connections again. -/
def QueryAnswer.Harmless (args : MysqlArgs) : QueryAnswer → Prop
  | .refused errno => ¬Reconnecting args errno
  | .noResult _ => True
  | .storeFailed errno => ¬Reconnecting args errno
  | .result _ => False

variable {i : ℕ}

/-- In the first round the error of the first connection is that of the round, and in later ones
there is none. -/
theorem errnos_setErrno (hfirst : i = 0 ∨ s.errnos 0 = 0) (errno : ℕ) :
    (s.setErrno i errno).errnos 0 = if i = 0 then errno else 0 := by
  show Function.update s.errnos i errno 0 = _
  by_cases hi : i = 0
  · rw [hi, Function.update_self, if_pos rfl]
  · rw [Function.update_of_ne (Ne.symm hi), hfirst.resolve_left hi, if_neg hi]

theorem not_reconnecting_setErrno {errno : ℕ} (hfirst : i = 0 ∨ s.errnos 0 = 0)
    (herrno : ¬Reconnecting args errno) : ¬Reconnecting args ((s.setErrno i errno).errnos 0) := by
  rw [errnos_setErrno hfirst]
  split
  · exact herrno
  · exact not_reconnecting_zero

theorem kept_failedRound {errno : ℕ}
    (hused : Kept out s (s.use kind number)) (hconn : ∀ handle ∈ s.connHandles, handle ∈ out)
    (hfirst : i = 0 ∨ s.errnos 0 = 0) (herrno : ¬Reconnecting args errno) :
    Kept out s (checkErrorHandles args answers ((s.use kind number).setErrno i errno)).1 :=
  (hused.trans (.setErrno hused.owns i errno)).trans
    (kept_checkError hused.owns hconn (not_reconnecting_setErrno hfirst herrno))

theorem errnos_goodRound (hfirst : i = 0 ∨ s.errnos 0 = 0) :
    ((s.use kind number).setErrno i 0).errnos 0 = 0 :=
  (errnos_setErrno (s := s.use kind number) hfirst 0).trans (ite_self 0)

variable {reconnects : ℕ → ReconnectAnswer} {handles : List ℕ} {answers : ℕ → QueryAnswer}

theorem kept_queryLoop (hanswers : ∀ k < i + handles.length, (answers k).Harmless args)
    (h : s.ledger.Owns out) (hconn : ∀ handle ∈ s.connHandles, handle ∈ out)
    (hhandles : ∀ con ∈ handles, (.mysql, con) ∈ out) (hfirst : i = 0 ∨ s.errnos 0 = 0) :
    Kept out s (queryHandlesLoop args reconnects answers i handles s).1 := by
  induction handles generalizing i s with
  | nil => exact .refl h
  | cons con handles ih =>
    have hused : Kept out s (s.use .mysql con) := .use h (hhandles con mem_cons_self)
    rw [length_cons, ← Nat.succ_add_eq_add_succ] at hanswers
    have hharmless := hanswers i (by omega)
    rw [queryHandlesLoop]
    split
    · rename_i errno heq
      rw [heq] at hharmless
      exact kept_failedRound hused hconn hfirst hharmless
    · have hset := hused.trans (.setErrno hused.owns i 0)
      refine hset.trans (ih hanswers hset.owns hconn ?_ (.inr (errnos_goodRound hfirst)))
      exact fun con' hcon' => hhandles con' (mem_cons_of_mem _ hcon')
    · rename_i errno heq
      rw [heq] at hharmless
      exact kept_failedRound hused hconn hfirst hharmless
    · rename_i t heq
      rw [heq] at hharmless
      exact absurd hharmless id

theorem kept_query {rc : DbError}
    (hanswers : ∀ i < s.connHandles.length, (answers i).Harmless args) (h : s.ledger.Owns out)
    (hconn : ∀ handle ∈ s.connHandles, handle ∈ out)
    (hrun : queryHandles args reconnects answers s = .ok (s', rc)) : Kept out s s' := by
  unfold queryHandles at hrun
  split at hrun
  · cases hrun
    exact .refl h
  · split at hrun
    · cases hrun
    · rename_i handles heq
      have hs' : s' = (queryHandlesLoop args reconnects answers 0 handles s).1 := fst_of_pure hrun
      rw [HandleState.connHandles, heq, length_map, ← Nat.zero_add (length _)] at hanswers
      rw [hs']
      refine kept_queryLoop hanswers h hconn (fun con hcon => hconn _ ?_) (.inl rfl)
      rw [HandleState.connHandles, heq]
      exact mem_map_of_mem hcon

/-! ### Prepared statements -/

/-- The handles of statements that `mysql_drv_prepare` has prepared so far. -/
def stmtsOf (statements : List (Option ℕ)) : List (Handle MysqlHandle) :=
  (statements.filterMap id).map (Prod.mk .mysqlStmt)

theorem stmtsOf_append (l l' : List (Option ℕ)) : stmtsOf (l ++ l') = stmtsOf l ++ stmtsOf l' := by
  rw [stmtsOf, filterMap_append, map_append]
  rfl

theorem stmtsOf_append_none (l : List (Option ℕ)) : stmtsOf (l ++ [none]) = stmtsOf l := by
  rw [stmtsOf_append]
  exact append_nil _

variable {statements : List (Option ℕ)} {answers : ℕ → ExecAnswer}

theorem kept_multiStmtFree (h : s.ledger.Owns (stmtsOf statements ++ out)) :
    Kept out s (multiStmtFree s statements) := by
  rw [multiStmtFree, foldl_release]
  exact ⟨rfl, rfl, h.releaseAll⟩

/-- What the loop of `mysql_drv_prepare` leaves. -/
structure Prepared (out : List (Handle MysqlHandle)) (s : HandleState)
    (result : HandleState × Option (List (Option ℕ) × Bool)) : Prop where
  failed : result.2 = none → Kept out s result.1
  done : ∀ statements emulated, result.2 = some (statements, emulated) →
    Kept (stmtsOf statements ++ out) s result.1 ∧ (emulated = false → none ∉ statements)

theorem Prepared.of_kept
    {result : HandleState × Option (List (Option ℕ) × Bool)} (hkept : Kept l s s₁)
    (h : Prepared out s₁ result) : Prepared out s result where
  failed := fun hnone => ⟨(h.failed hnone).conn.trans hkept.conn,
    (h.failed hnone).stmts.trans hkept.stmts, (h.failed hnone).owns⟩
  done := fun statements emulated hsome => by
    obtain ⟨hdone, hnone⟩ := h.done statements emulated hsome
    exact ⟨⟨hdone.conn.trans hkept.conn, hdone.stmts.trans hkept.stmts, hdone.owns⟩, hnone⟩

theorem prepared_of_none {s₂ : HandleState} (h₁ : Kept l s s₁)
    (h₂ : Kept out s₁ s₂) : Prepared out s (s₂, none) :=
  .of_kept h₁ ⟨fun _ => h₂, nofun⟩

/-- Every way out of `mysql_drv_prepare` leaves the handles it accounts for. -/
theorem prepared_prepareLoop (usePs : Bool) (answers : ℕ → StmtAnswer) (i : ℕ) {emulated : Bool}
    (h : s.ledger.Owns (stmtsOf statements ++ out))
    (hhandles : ∀ con ∈ handles, (.mysql, con) ∈ out)
    (hnone : emulated = false → none ∉ statements) :
    Prepared out s (prepareLoop usePs answers i handles s statements emulated) := by
  induction handles generalizing i s statements emulated with
  | nil =>
    refine ⟨nofun, fun statements' emulated' heq => ?_⟩
    cases heq
    exact ⟨.refl h, hnone⟩
  | cons con handles ih =>
    have hrest (con' : ℕ) (hcon' : con' ∈ handles) := hhandles con' (mem_cons_of_mem _ hcon')
    have hcon : (.mysql, con) ∈ stmtsOf statements ++ out :=
      mem_append_right _ (hhandles con mem_cons_self)
    have hused : Kept (stmtsOf statements ++ out) s (s.use .mysql con) := .use h hcon
    rw [prepareLoop]
    split
    · dsimp only
      -- The statement is made and tried in three of the four cases.
      have hmade : Kept ((.mysqlStmt, s.ledger.next) :: (stmtsOf statements ++ out)) s
          (((s.use .mysql con).obtain .mysqlStmt).use .mysqlStmt s.ledger.next) :=
        ⟨rfl, rfl, Owns.use (Owns.obtain hused.owns .mysqlStmt) mem_cons_self⟩
      have hclosed : Kept (stmtsOf statements ++ out) s
          (((((s.use .mysql con).obtain .mysqlStmt).use .mysqlStmt s.ledger.next).use .mysql
            con).release .mysqlStmt s.ledger.next) :=
        ⟨rfl, rfl, Owns.release (Owns.use hmade.owns (mem_cons_of_mem _ hcon))⟩
      split
      · exact prepared_of_none hused (kept_multiStmtFree hused.owns)
      · refine .of_kept hmade (ih _ ?_ hrest fun hemulated hmem => ?_)
        · rw [stmtsOf_append, append_assoc]
          exact hmade.owns.perm perm_middle.symm
        · rcases mem_append.mp hmem with hold | hnew
          · exact hnone hemulated hold
          · cases mem_singleton.mp hnew
      · refine .of_kept hclosed (ih _ ?_ hrest nofun)
        rw [stmtsOf_append_none]
        exact hclosed.owns
      · exact prepared_of_none hclosed (kept_multiStmtFree hclosed.owns)
    · refine ih _ ?_ hrest nofun
      rw [stmtsOf_append_none]
      exact h

/-- The answer obtains no metadata, and is no error that makes the connections again. -/
def ExecAnswer.Harmless (args : MysqlArgs) (query : Bytes) (a : ExecAnswer) : Prop :=
  (isDml query = true ∨ a.result = none) ∧
    ∀ errno, a.executeError = some errno ∨ a.storeError = some errno → ¬Reconnecting args errno

variable {rc : ℤ}

theorem kept_executeLoop {query : Bytes}
    (hanswers : ∀ k < i + statements.length, (answers k).Harmless args query)
    (h : s.ledger.Owns out)
    (hconn : ∀ handle ∈ s.connHandles, handle ∈ out)
    (hstmts : ∀ stmt, some stmt ∈ statements → (.mysqlStmt, stmt) ∈ out) (hnone : none ∉ statements)
    (hfirst : i = 0 ∨ s.errnos 0 = 0)
    (hrun : executeHandlesLoop args reconnects query answers i statements s = .ok (s', rc)) :
    Kept out s s' := by
  induction statements generalizing i s with
  | nil =>
    cases hrun
    exact .refl h
  | cons statement statements ih =>
    cases statement with
    | none => exact absurd mem_cons_self hnone
    | some stmt =>
      have hused : Kept out s (s.use .mysqlStmt stmt) := .use h (hstmts stmt mem_cons_self)
      rw [length_cons, ← Nat.succ_add_eq_add_succ] at hanswers
      obtain ⟨hmeta, herrno⟩ := hanswers i (by omega)
      obtain ⟨bound, hbind, hrun⟩ := bind_eq_ok.mp hrun
      cases bound with
      | false =>
        cases hrun
        exact hused
      | true =>
        -- Without metadata the loop goes on for changes only, and obtains nothing.
        have hdml : isDml query = true := by
          cases hdml : isDml query with
          | true => rfl
          | false =>
            have hmissing := hmeta.resolve_left (by rw [hdml]; exact Bool.false_ne_true)
            exact nomatch (bindResult_ok hbind).mpr ⟨hdml, hmissing⟩
        simp only [hdml, if_true] at hrun
        split at hrun
        · rename_i errno heq
          cases hrun
          exact kept_failedRound hused hconn hfirst (herrno errno (.inl heq))
        · rename_i errno _ heq
          cases hrun
          exact kept_failedRound hused hconn hfirst (herrno errno (.inr heq))
        · have hset := hused.trans (.setErrno hused.owns i 0)
          refine hset.trans
            (ih hanswers hset.owns hconn ?_ ?_ (.inr (errnos_goodRound hfirst)) hrun)
          · exact fun stmt' hstmt' => hstmts stmt' (mem_cons_of_mem _ hstmt')
          · exact fun hmem => hnone (mem_cons_of_mem _ hmem)

/-! ### Steps -/

/-- What keeps a run in order: every host is connected to, or none; nothing is made again; no
result set and no metadata are obtained; a statement of the server is neither closed nor left
behind, and its results are not freed. -/
def StepOk (args : MysqlArgs) (s : HandleState) : DrvCall → Prop
  | .connect hosts =>
    s.conn = none ∧ ((∀ answer ∈ hosts, answer = .connected) ∨ hosts.head? = some .initFailed)
  | .disconnect => ∀ stmt ∈ s.stmts, stmt.handles = []
  | .reconnect _ => s.conn = none
  | .query _ answers => ∀ i < s.connHandles.length, (answers i).Harmless args
  | .prepare _ _ => True
  | .execute k _ answers =>
    ∀ stmt, s.stmts[k]? = some stmt →
      ∀ i < (stmt.ptr.getD []).length, (answers i).Harmless args stmt.query
  | .freeResults none => True
  | .freeResults (some k) => ∀ stmt, s.stmts[k]? = some stmt → stmt.emulated = true
  | .close k => ∀ stmt, s.stmts[k]? = some stmt → stmt.ptr = none

variable {stmt : HandleStmt}

theorem mem_stmtHandles (hstmt : stmt ∈ s.stmts) {h : Handle MysqlHandle} (hh : h ∈ stmt.handles) :
    h ∈ s.stmtHandles :=
  mem_flatMap.mpr ⟨stmt, hstmt, hh⟩

/-- The loop of `mysql_drv_connect`, if it gets through. -/
theorem connectLoop_connected
    (hhosts : ∀ answer ∈ hosts, answer = .connected)
    (h : s.ledger.Owns (handles.map (Prod.mk .mysql) ++ out)) :
    ∃ s' handles', connectLoop hosts s handles = (s', some handles') ∧
      Kept (handles'.map (Prod.mk .mysql) ++ out) s s' := by
  induction hosts generalizing s handles with
  | nil => exact ⟨s, handles, rfl, .refl h⟩
  | cons answer hosts ih =>
    cases hhosts answer mem_cons_self
    have hmade : ((s.obtain .mysql).use .mysql s.ledger.next).ledger.Owns
        ((.mysql, s.ledger.next) :: (handles.map (Prod.mk .mysql) ++ out)) :=
      Owns.use (Owns.obtain h .mysql) mem_cons_self
    have hnext : ((s.obtain .mysql).use .mysql s.ledger.next).ledger.Owns
        ((handles ++ [s.ledger.next]).map (Prod.mk .mysql) ++ out) := by
      rw [map_append, append_assoc]
      exact hmade.perm perm_middle.symm
    obtain ⟨s', handles', hloop, hkept⟩ :=
      ih (fun answer hanswer => hhosts answer (mem_cons_of_mem _ hanswer)) hnext
    exact ⟨s', handles', hloop, hkept.conn, hkept.stmts, hkept.owns⟩

theorem Sound.connect (h : Sound args s)
    (hok : StepOk args s (.connect hosts)) : Sound args (connectHandles args s hosts).1 := by
  obtain ⟨hclosed, hhosts⟩ := hok
  unfold connectHandles
  split
  · exact h
  · rename_i hdry
    have hstart : s.ledger.Owns (([] : List ℕ).map (Prod.mk .mysql) ++ []) := by
      have howns := h.owns
      rwa [HandleState.connHandles, hclosed, h.closed hclosed] at howns
    rcases hhosts with hall | hfirst
    · obtain ⟨s', handles, hloop, hconn, hstmts, howns⟩ := connectLoop_connected hall hstart
      rw [hloop]
      have hnone : s'.stmts.flatMap HandleStmt.handles = [] := by
        rw [hstmts]
        exact h.closed hclosed
      refine ⟨?_, nofun, ?_, fun hc => absurd hc hdry⟩
      · rw [HandleState.stmtHandles, hnone]
        exact howns
      · dsimp only
        rw [hstmts]
        exact h.prepared
    · cases hosts with
      | nil => cases hfirst
      | cons answer hosts =>
        cases Option.some.inj hfirst
        exact h

theorem Sound.disconnect (h : Sound args s) (hok : StepOk args s .disconnect) :
    Sound args (disconnectHandles s).1 := by
  have hnone : s.stmtHandles = [] := flatMap_eq_nil_iff.mpr hok
  unfold disconnectHandles
  split
  · exact h
  · rename_i handles heq
    have howns := h.owns
    rw [HandleState.connHandles, heq, hnone] at howns
    rw [foldl_release]
    refine ⟨?_, fun _ => hnone, h.prepared, fun _ => rfl⟩
    show (s.ledger.releaseAll (handles.map (Prod.mk .mysql))).Owns ([] ++ s.stmtHandles)
    rw [hnone]
    exact howns.releaseAll

/-- A new statement, with the handles it has been given. -/
theorem Sound.addStmt (h : Sound args s)
    (hkept : Kept (stmt.handles ++ (s.connHandles ++ s.stmtHandles)) s s')
    (hclosed : s.conn = none → stmt.handles = [])
    (hprepared : stmt.emulated = false → ∀ l, stmt.ptr = some l → none ∉ l) :
    Sound args { s' with stmts := s'.stmts ++ [stmt] } := by
  obtain ⟨hconn, hstmts, howns⟩ := hkept
  have hhandles : HandleState.stmtHandles { s' with stmts := s'.stmts ++ [stmt] }
      = s.stmtHandles ++ stmt.handles := by
    rw [HandleState.stmtHandles, flatMap_append, flatMap_singleton, hstmts]
    rfl
  have hconns : HandleState.connHandles { s' with stmts := s'.stmts ++ [stmt] }
      = s.connHandles := by
    rw [HandleState.connHandles, hconn]
    rfl
  refine ⟨?_, fun hc => ?_, fun stmt' hstmt' hemulated l hl => ?_, fun hdry => ?_⟩
  · rw [hhandles, hconns, ← append_assoc]
    exact howns.perm perm_append_comm
  · have hnone := hconn.symm.trans hc
    rw [hhandles, h.closed hnone, hclosed hnone]
    rfl
  · rcases mem_append.mp hstmt' with hold | hnew
    · exact h.prepared stmt' (hstmts ▸ hold) hemulated l hl
    · rw [mem_singleton.mp hnew] at hemulated hl
      exact hprepared hemulated l hl
  · exact hconn.trans (h.dry hdry)

theorem Sound.prepare (h : Sound args s) (query : Bytes) (answers : ℕ → StmtAnswer) :
    Sound args (prepareHandles args query answers s).1 := by
  unfold prepareHandles
  split
  · exact h.addStmt (.refl h.owns) (fun _ => rfl) nofun
  · split
    · exact h
    · exact h
    · rename_i con handles heq
      have hstart : s.ledger.Owns (stmtsOf [] ++ (s.connHandles ++ s.stmtHandles)) := h.owns
      have hcons (con' : ℕ) (hcon' : con' ∈ con :: handles) :
          (.mysql, con') ∈ s.connHandles ++ s.stmtHandles := by
        rw [HandleState.connHandles, heq]
        exact mem_append_left _ (mem_map_of_mem hcon')
      have hloop := prepared_prepareLoop args.usePs answers 0 hstart hcons
        fun _ : false = false => not_mem_nil
      split
      · rename_i s' hresult
        rw [hresult] at hloop
        exact h.kept (hloop.failed rfl)
      · rename_i s' statements emulated hresult
        rw [hresult] at hloop
        obtain ⟨hkept, hnone⟩ := hloop.done statements emulated rfl
        refine h.addStmt hkept (fun hc => (nomatch heq.symm.trans hc)) fun hemulated l hl => ?_
        cases hl
        exact hnone hemulated

theorem Sound.execute (h : Sound args s) {k : ℕ}
    (hstmt : s.stmts[k]? = some stmt)
    (hanswers : ∀ i < (stmt.ptr.getD []).length, (answers i).Harmless args stmt.query)
    (hrun : executeHandles args reconnects stmt answers s = .ok (s', rc)) : Sound args s' := by
  have hmem : stmt ∈ s.stmts := mem_of_getElem? hstmt
  unfold executeHandles at hrun
  split at hrun
  · cases hrun
    exact h
  · split at hrun
    · cases hrun
      exact h
    · rename_i hemulated
      split at hrun
      · cases hrun
      · rename_i statements heq
        have hnone := h.prepared stmt hmem (Bool.eq_false_iff.mpr hemulated) statements heq
        rw [heq, Option.getD_some, ← Nat.zero_add (length _)] at hanswers
        refine h.kept (kept_executeLoop hanswers h.owns (fun _ => mem_append_left _) ?_ hnone
          (.inl rfl) hrun)
        intro number hnumber
        refine mem_append_right _ (mem_stmtHandles hmem ?_)
        rw [HandleStmt.handles, heq]
        exact mem_map_of_mem (mem_filterMap.mpr ⟨some number, hnumber, rfl⟩)

theorem sound_step (h : Sound args s) {call : DrvCall} (hok : StepOk args s call)
    (hstep : handleStep args s call = .ok (s', rc)) : Sound args s' := by
  cases call with
  | connect hosts =>
    have hs' : s' = (connectHandles args s hosts).1 := fst_of_pure hstep
    rw [hs']
    exact h.connect hok
  | disconnect =>
    have hs' : s' = (disconnectHandles s).1 := fst_of_pure hstep
    rw [hs']
    exact h.disconnect hok
  | reconnect answers =>
    have hconn : s.conn = none := hok
    simp only [handleStep, reconnectHandles, hconn] at hstep
    cases hstep
    exact h
  | query reconnects answers =>
    obtain ⟨⟨s₁, rc₁⟩, hquery, hstep⟩ := bind_eq_ok.mp hstep
    cases hstep
    exact h.kept (kept_query hok h.owns (fun _ => mem_append_left _) hquery)
  | prepare query answers =>
    have hs' : s' = (prepareHandles args query answers s).1 := fst_of_pure hstep
    rw [hs']
    exact h.prepare query answers
  | execute k reconnects answers =>
    rw [handleStep] at hstep
    split at hstep
    · cases hstep
    · rename_i stmt hstmt
      exact h.execute hstmt (hok stmt hstmt) hstep
  | freeResults stmt =>
    cases stmt with
    | none =>
      simp only [handleStep, freeResultsHandles, ite_self] at hstep
      cases hstep
      exact h
    | some k =>
      rw [handleStep] at hstep
      split at hstep
      · cases hstep
      · rename_i stmt hstmt
        simp only [freeResultsHandles, hok stmt hstmt, if_true, ite_self] at hstep
        cases hstep
        exact h
  | close k =>
    rw [handleStep] at hstep
    split at hstep
    · cases hstep
    · rename_i stmt hstmt
      simp only [closeHandles, hok stmt hstmt] at hstep
      split at hstep
      · cases hstep
        exact h
      · cases hstep
        exact h

/-- **When the compare driver gives back its handles.** In every run whose calls all meet
`StepOk`, the client library gets nothing but live handles of the right kind; and whenever there
is no connection, every handle that was handed out has been taken back exactly once. -/
theorem handles_released_once (args : MysqlArgs) {s : HandleState}
    (hrun : Reach (handleStep args) (StepOk args) HandleState.init s) :
    Disciplined s.ledger.calls ∧
      (s.conn = none → ∀ h, .obtain h ∈ s.ledger.calls → releases h s.ledger.calls = 1) := by
  have hsound : Sound args s :=
    hrun.invariant (sound_init args) fun hs hok hstep => sound_step hs hok hstep
  refine ⟨hsound.owns.disciplined, fun hclosed h hmem => ?_⟩
  have howns := hsound.owns
  rw [HandleState.connHandles, hclosed, hsound.closed hclosed] at howns
  exact howns.released_once hmem

/-- Two hosts, one statement without a result set. -/
theorem handles_released_once_two_hosts :
    ∃ s, Reach (handleStep strictArgs) (StepOk strictArgs) HandleState.init s ∧
      s.conn = none ∧ s.ledger.calls ≠ [] ∧
      ∀ h, .obtain h ∈ s.ledger.calls → releases h s.ledger.calls = 1 := by
  have hconnect : StepOk strictArgs HandleState.init (.connect [.connected, .connected]) :=
    ⟨rfl, .inl (by decide)⟩
  have hquery (s : HandleState) :
      StepOk strictArgs s (.query (fun _ => ⟨0, false⟩) fun _ => .noResult 1) := fun _ _ => trivial
  have hdisconnect {s : HandleState} (hstmts : s.stmts = []) :
      StepOk strictArgs s .disconnect := by
    intro stmt hstmt
    rw [hstmts] at hstmt
    exact absurd hstmt not_mem_nil
  have hinit : Reach (handleStep strictArgs) (StepOk strictArgs) HandleState.init
      HandleState.init := .refl
  have hreach := ((hinit.next hconnect rfl).next (hquery _) rfl).next (hdisconnect rfl) rfl
  exact ⟨_, hreach, rfl, by decide, (handles_released_once strictArgs hreach).2 rfl⟩

/-- The calls of the client library in a run. -/
def libraryCalls (calls : List DrvCall) : List (HandleCall MysqlHandle) :=
  match trace (handleStep strictArgs) HandleState.init calls with
  | .ok (s, _) => s.ledger.calls
  | .error _ => []

/-- A result set without columns. -/
def noColumns : StoredResult where
  fields := []
  rows := []
  names := nofun
  width := nofun

/-- The library has handed out the handle, and it has never been given back. -/
def NeverReleased (h : Handle MysqlHandle) (calls : List (HandleCall MysqlHandle)) : Prop :=
  .obtain h ∈ calls ∧ releases h calls = 0

/-- A second host that cannot be reached, and a result set: a handle is never given back.  A
reconnect uses a handle that has been given back, and a close gives back what is no handle. -/
theorem handles_lost_and_misused :
    NeverReleased (.mysql, 0)
      (libraryCalls [.connect [.connected, .connectFailed], .disconnect]) ∧
    NeverReleased (.mysqlRes, 1)
      (libraryCalls [.connect [.connected],
        .query (fun _ => ⟨0, false⟩) fun _ => .result noColumns, .disconnect]) ∧
    ¬Disciplined (libraryCalls [.connect [.connected], .reconnect fun _ => ⟨0, false⟩]) ∧
    ¬Disciplined (libraryCalls [.connect [.connected], .prepare [68, 79] fun _ => .prepared,
      .close 0]) := by
  refine ⟨⟨by decide, by decide⟩, ⟨by decide, by decide⟩, fun h => ?_, fun h => ?_⟩
  · obtain ⟨handle, hptr, -, hout⟩ := h [.obtain (.mysql, 0), .use .mysql (some (.mysql, 0)),
      .release .mysql (some (.mysql, 0))] (.use .mysql (some (.mysql, 0))) [] rfl
    cases hptr
    exact hout.2 .mysql (by decide)
  · obtain ⟨handle, hptr, -, -⟩ := h [.obtain (.mysql, 0), .use .mysql (some (.mysql, 0)),
      .use .mysql (some (.mysql, 0)), .obtain (.mysqlStmt, 1),
      .use .mysqlStmt (some (.mysqlStmt, 1))] (.release .mysqlStmt none) [] rfl
    exact nomatch hptr

end Sysbench.Compare
