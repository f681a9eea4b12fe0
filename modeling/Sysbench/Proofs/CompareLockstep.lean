/-
When the instances of the compare driver stay in step.

Both loops of the driver send a statement to one instance after the other and return at
the first error, so a statement is executed on the first few instances and on no other.
`Call.mark` is how an instance's answers move the loop; `step_log` says that a call adds
its statement to the logs of the instances reached.  The logs stay the same exactly when
that is none of them or all.
-/
import Sysbench.Lib.Broadcast
import Sysbench.Lib.Runs
import Sysbench.Model.CompareDriver

namespace Sysbench.Compare

open List Broadcast Runs

variable {n : ℕ} {args : MysqlArgs} {c c' : Conn n} {answers : Fin (n + 1) → QueryAnswer}

/-! ### The logs -/

/-- The statements executed on each instance. -/
def Conn.log (c : Conn n) (i : Fin (n + 1)) : List Bytes := (c.instances i).executed

@[simp] theorem log_failed (c : Conn n) (i : Fin (n + 1)) (errno : ℕ) :
    (c.failed i errno).log = c.log := by
  funext j
  unfold Conn.log Conn.failed
  by_cases hj : j = i
  · subst hj
    simp
  · simp [hj]

theorem log_ran (c : Conn n) (i : Fin (n + 1)) (statement : Bytes) :
    (c.ran i statement).log = Function.update c.log i (c.log i ++ [statement]) := by
  funext j
  unfold Conn.log Conn.ran
  by_cases hj : j = i
  · subst hj
    simp
  · simp [hj]

@[simp] theorem log_checkError (args : MysqlArgs) (reconnects : Bool) (c : Conn n) :
    (checkError args reconnects c).1.log = c.log := rfl

/-! ### How the answers of an instance move the loop -/

def QueryAnswer.mark : QueryAnswer → Mark
  | .refused _ => .stopBefore
  | .noResult _ => .pass
  | .storeFailed _ => .stopAfter
  | .result _ => .pass

def ExecAnswer.mark (query : Bytes) (a : ExecAnswer) : Mark :=
  if isDml query = false ∧ a.result.isNone then .stopBefore
  else if a.executeError.isSome then .stopBefore
  else if a.storeError.isSome then .stopAfter
  else .pass

/-- Dry runs and emulated statements send nothing to any instance. -/
def Call.mark (args : MysqlArgs) : Call n → Fin (n + 1) → Mark
  | .query _ _ _ answers, i => if args.dryRun then .stopBefore else (answers i).mark
  | .execute _ stmt answers, i =>
    if args.dryRun ∨ stmt.emulated then .stopBefore else (answers i).mark stmt.query

def Call.statement : Call n → Bytes
  | .query _ text len _ => text.take len
  | .execute _ stmt _ => stmt.query

/-- What one round of a loop does: the log of the instance, and whether the loop goes on. -/
structure Round {A : Type} (mark : Mark) (i : Fin (n + 1)) (statement : Bytes)
    (c c' : Conn n) (rc : Option A) : Prop where
  goesOn : rc = none ↔ mark = .pass
  before : mark = .stopBefore → c'.log = c.log
  ran : mark ≠ .stopBefore → c'.log = Function.update c.log i (c.log i ++ [statement])

variable {heap : Fin (n + 1) → ℕ → UInt8} {reconnects : Bool} {query : Bytes} {len : ℕ}

variable {i : Fin (n + 1)}

theorem queryInstance_round {v v' : QueryVars n} {a : QueryAnswer} {rc : Option DbError}
    (h : queryInstance args heap reconnects query len v i a = .ok (v', rc)) :
    Round a.mark i (query.take len) v.conn v'.conn rc := by
  cases a with
  | refused errno =>
    have hlog := log_checkError args reconnects (v.conn.failed i errno)
    obtain ⟨rfl, rfl⟩ := h
    exact ⟨⟨nofun, nofun⟩, fun _ => hlog.trans (log_failed _ _ _), fun hc => absurd rfl hc⟩
  | storeFailed errno =>
    have hlog := log_checkError args reconnects ((v.conn.ran i (query.take len)).failed i errno)
    obtain ⟨rfl, rfl⟩ := h
    refine ⟨⟨nofun, nofun⟩, nofun, fun _ => ?_⟩
    exact hlog.trans ((log_failed _ _ _).trans (log_ran _ _ _))
  | noResult affectedRows =>
    unfold queryInstance at h
    simp only at h
    split at h
    · split at h <;>
        · cases h
          exact ⟨⟨fun _ => rfl, fun _ => rfl⟩, nofun, fun _ => log_ran _ _ _⟩
    · cases h
      exact ⟨⟨fun _ => rfl, fun _ => rfl⟩, nofun, fun _ => log_ran _ _ _⟩
  | result t =>
    obtain ⟨v₁, hrender, h⟩ := bind_eq_ok.mp h
    have hconn : v₁.conn = v.conn.ran i (query.take len) := by
      unfold renderInto at hrender
      split at hrender
      · obtain ⟨text, _, hpure⟩ := bind_eq_ok.mp hrender
        cases hpure
        rfl
      · cases hrender
        rfl
    have hv' : v'.conn = v₁.conn ∧ rc = none := by
      split at h <;>
        · cases h
          exact ⟨rfl, rfl⟩
    refine ⟨⟨fun _ => rfl, fun _ => hv'.2⟩, nofun, fun _ => ?_⟩
    rw [hv'.1, hconn, log_ran]

theorem executeInstance_round {v v' : ExecVars n} {a : ExecAnswer} {rc : Option ℤ}
    (hbound : isDml query = true ∨ a.result.isSome)
    (h : executeInstance args reconnects query v i a = .ok (v', rc)) :
    Round (a.mark query) i query v.conn v'.conn rc := by
  have hmark : a.mark query = if a.executeError.isSome then .stopBefore
      else if a.storeError.isSome then .stopAfter else .pass := by
    unfold ExecAnswer.mark
    rw [if_neg]
    rintro ⟨hdml, hnone⟩
    rcases hbound with hb | hb
    · rw [hb] at hdml
      cases hdml
    · rw [Option.isNone_iff_eq_none.mp hnone] at hb
      cases hb
  unfold executeInstance at h
  cases hexec : a.executeError with
  | some errno =>
    have hlog := log_checkError args reconnects (v.conn.failed i errno)
    simp only [hexec, Except.ok.injEq, Prod.mk.injEq] at h hmark
    obtain ⟨rfl, rfl⟩ := h
    rw [hmark]
    exact ⟨⟨nofun, nofun⟩, fun _ => hlog.trans (log_failed _ _ _), fun hc => absurd rfl hc⟩
  | none =>
    simp only [hexec] at h hmark
    cases hstore : a.storeError with
    | some errno =>
      have hlog := log_checkError args reconnects ((v.conn.ran i query).failed i errno)
      simp only [hstore, Except.ok.injEq, Prod.mk.injEq] at h hmark
      obtain ⟨rfl, rfl⟩ := h
      rw [hmark]
      refine ⟨⟨nofun, nofun⟩, nofun, fun _ => ?_⟩
      exact hlog.trans ((log_failed _ _ _).trans (log_ran _ _ _))
    | none =>
      simp only [hstore] at h hmark
      have hv' : v'.conn = v.conn.ran i query ∧ rc = none := by
        split at h
        · obtain ⟨text, _, hpure⟩ := bind_eq_ok.mp h
          cases hpure
          by_cases hi : i = 0
          · simp [hi]
          · simp [hi]
        · cases h
          by_cases hi : i = 0
          · simp [hi]
          · simp [hi]
      rw [hmark]
      refine ⟨⟨fun _ => rfl, fun _ => hv'.2⟩, nofun, fun _ => ?_⟩
      rw [hv'.1, log_ran]

/-! ### The loops -/

/-- The logs, with a statement added to those of the instances in the list. -/
def extend (log : Fin (n + 1) → List Bytes) (statement : Bytes) (l : List (Fin (n + 1)))
    (i : Fin (n + 1)) : List Bytes :=
  log i ++ if i ∈ l then [statement] else []

theorem extend_nil (log : Fin (n + 1) → List Bytes) (statement : Bytes) :
    extend log statement [] = log := by
  funext i
  simp [extend]

theorem extend_cons {log : Fin (n + 1) → List Bytes} {statement : Bytes} {l : List (Fin (n + 1))}
    (hi : i ∉ l) :
    extend log statement (i :: l)
      = extend (Function.update log i (log i ++ [statement])) statement l := by
  funext j
  unfold extend
  by_cases hj : j = i
  · subst hj
    simp [hi]
  · simp [hj]

/-- A loop whose rounds are `Round` adds the statement where it is reached. -/
theorem Round.log_eq {A : Type} (mark : Fin (n + 1) → Mark) {rest : List (Fin (n + 1))}
    {statement : Bytes} {c₁ : Conn n} {rc : Option A} (h : Round (mark i) i statement c c₁ rc)
    (hi : i ∉ rest) (hstop : rc ≠ none → c' = c₁)
    (hnext : rc = none → c'.log = extend c₁.log statement (reached mark rest)) :
    c'.log = extend c.log statement (reached mark (i :: rest)) := by
  have hrest : i ∉ reached mark rest := fun hc => hi ((reached_sublist rest).subset hc)
  cases hm : mark i with
  | pass =>
    rw [reached_cons_pass hm, extend_cons hrest, hnext (h.goesOn.mpr hm), h.ran (by simp [hm])]
  | stopBefore =>
    have hret : rc ≠ none := fun hc => nomatch hm.symm.trans (h.goesOn.mp hc)
    rw [reached_cons_stopBefore hm, extend_nil, hstop hret, h.before hm]
  | stopAfter =>
    have hret : rc ≠ none := fun hc => nomatch hm.symm.trans (h.goesOn.mp hc)
    rw [reached_cons_stopAfter hm, extend_cons (by simp), extend_nil, hstop hret,
      h.ran (by simp [hm])]

theorem queryLoop_log (l : List (Fin (n + 1))) :
    ∀ {v v' : QueryVars n} {rc : Option DbError}, l.Nodup →
      queryLoop args heap reconnects query len answers l v = .ok (v', rc) →
      v'.conn.log = extend v.conn.log (query.take len) (reached (fun i => (answers i).mark) l) := by
  induction l with
  | nil =>
    intro v v' rc _ h
    cases h
    exact (extend_nil _ _).symm
  | cons i rest ih =>
    intro v v' rc hnodup h
    obtain ⟨hi, hrest⟩ := nodup_cons.mp hnodup
    obtain ⟨⟨v₁, rc₁⟩, hround, h⟩ := bind_eq_ok.mp h
    refine Round.log_eq (fun i => (answers i).mark) (queryInstance_round hround) hi
      (fun hstop => ?_) (fun hnext => ?_)
    · cases rc₁ with
      | none => exact absurd rfl hstop
      | some e => cases h; rfl
    · subst hnext
      exact ih hrest h

/-- The binding of results goes on unless a statement that is no change has no metadata. -/
theorem bindResult_ok {dml : Bool} {a : ExecAnswer} {bound : Bool}
    (h : bindResult dml a = .ok bound) : bound = false ↔ dml = false ∧ a.result = none := by
  unfold bindResult at h
  split at h
  · cases h
    exact iff_of_false nofun fun hc => (nomatch hc.1)
  · rename_i hnone
    cases h
    exact iff_of_true rfl ⟨rfl, hnone⟩
  · rename_i hsome
    split at h
    · cases h
    · split at h
      · cases h
      · cases h
        exact iff_of_false nofun fun hc => (nomatch hsome.symm.trans hc.2)

theorem executeLoop_log {stmt : MultiStmt n} {answers : Fin (n + 1) → ExecAnswer}
    (hstmt : stmt.emulated = false) (l : List (Fin (n + 1))) :
    ∀ {v v' : ExecVars n} {rc : Option ℤ}, l.Nodup →
      executeLoop args reconnects stmt answers l v = .ok (v', rc) →
      v'.conn.log
        = extend v.conn.log stmt.query (reached (fun i => (answers i).mark stmt.query) l) := by
  induction l with
  | nil =>
    intro v v' rc _ h
    cases h
    exact (extend_nil _ _).symm
  | cons i rest ih =>
    intro v v' rc hnodup h
    obtain ⟨hi, hrest⟩ := nodup_cons.mp hnodup
    rw [executeLoop, if_pos (stmt.prepared hstmt i)] at h
    obtain ⟨bound, hbind, h⟩ := bind_eq_ok.mp h
    cases bound with
    | false =>
      -- There are no metadata, and the function returns before it executes anything.
      have hmark : (answers i).mark stmt.query = .stopBefore := by
        obtain ⟨hdml, hnone⟩ := (bindResult_ok hbind).mp rfl
        rw [ExecAnswer.mark, if_pos ⟨hdml, by rw [hnone]; rfl⟩]
      have hnone : reached (fun i => (answers i).mark stmt.query) (i :: rest) = [] :=
        reached_cons_stopBefore hmark
      cases h
      rw [hnone, extend_nil]
    | true =>
      have hbound : isDml stmt.query = true ∨ (answers i).result.isSome := by
        have hnot := mt (bindResult_ok hbind).mpr (by decide)
        rw [Option.isSome_iff_ne_none, ← Bool.not_eq_false]
        exact not_and_or.mp hnot
      obtain ⟨⟨v₁, rc₁⟩, hround, h⟩ := bind_eq_ok.mp h
      refine Round.log_eq (fun i => (answers i).mark stmt.query)
        (executeInstance_round hbound hround) hi (fun hstop => ?_) (fun hnext => ?_)
      · cases rc₁ with
        | none => exact absurd rfl hstop
        | some e => cases h; rfl
      · subst hnext
        exact ih hrest h

theorem extend_stopBefore {mark : Fin (n + 1) → Mark} (h : mark 0 = .stopBefore)
    (log : Fin (n + 1) → List Bytes) (statement : Bytes) :
    extend log statement (reached mark (finRange (n + 1))) = log := by
  rw [finRange_succ, reached_cons_stopBefore h, extend_nil]

variable {r : Return n}

theorem mysqlDrvQuery_log {rs : RsData Empty}
    (hdry : args.dryRun = false)
    (h : mysqlDrvQuery args heap reconnects c query len answers rs = .ok (c', r)) :
    c'.log = extend c.log (query.take len)
      (reached (fun i => (answers i).mark) (finRange (n + 1))) := by
  rw [mysqlDrvQuery, if_neg (by simp [hdry])] at h
  obtain ⟨⟨v, rc⟩, hloop, h⟩ := bind_eq_ok.mp h
  have hlog := queryLoop_log _ (nodup_finRange _) hloop
  cases rc with
  | some e =>
    cases h
    exact hlog
  | none =>
    obtain ⟨mismatches, _, hpure⟩ := bind_eq_ok.mp h
    cases hpure
    exact hlog

theorem mysqlDrvExecute_log {stack : Fin (n + 1) → ℕ → UInt8} {stmt : MultiStmt n}
    {answers : Fin (n + 1) → ExecAnswer} {rs : RsData Empty} (hdry : args.dryRun = false)
    (hemul : stmt.emulated = false)
    (h : mysqlDrvExecute args stack reconnects c stmt answers rs = .ok (c', r)) :
    c'.log = extend c.log stmt.query
      (reached (fun i => (answers i).mark stmt.query) (finRange (n + 1))) := by
  rw [mysqlDrvExecute, if_neg (by simp [hdry]), if_neg (by simp [hemul])] at h
  obtain ⟨⟨v, rc⟩, hloop, h⟩ := bind_eq_ok.mp h
  have hlog := executeLoop_log hemul _ (nodup_finRange _) hloop
  cases rc with
  | some e =>
    cases h
    exact hlog
  | none =>
    obtain ⟨mismatches, _, hpure⟩ := bind_eq_ok.mp h
    cases hpure
    exact hlog

/-- **What a call adds to the logs.** -/
theorem step_log {call : Call n} (h : step args c call = .ok (c', r)) :
    c'.log = extend c.log call.statement (reached (call.mark args) (finRange (n + 1))) := by
  cases call with
  | query env text len answers =>
    cases hdry : args.dryRun with
    | true =>
      rw [step, mysqlDrvQuery, if_pos hdry] at h
      cases h
      rw [extend_stopBefore (by rw [Call.mark, if_pos hdry])]
    | false =>
      have hmark : (Call.query env text len answers).mark args = fun i => (answers i).mark := by
        funext i
        rw [Call.mark, if_neg (by simp [hdry])]
      rw [hmark]
      exact mysqlDrvQuery_log hdry h
  | execute env stmt answers =>
    by_cases hnone : args.dryRun = true ∨ stmt.emulated = true
    · rw [extend_stopBefore (by rw [Call.mark, if_pos hnone])]
      rw [step, mysqlDrvExecute] at h
      split at h
      · cases h
        rfl
      · rename_i hdry
        rw [if_pos (hnone.resolve_left hdry)] at h
        cases h
        rfl
    · have hmark : (Call.execute env stmt answers).mark args
          = fun i => (answers i).mark stmt.query := by
        funext i
        rw [Call.mark, if_neg hnone]
      rw [hmark]
      obtain ⟨hdry, hemul⟩ := not_or.mp hnone
      exact mysqlDrvExecute_log (by simpa using hdry) (by simpa using hemul) h

/-! ### Lockstep -/

/-- All instances have executed the same statements. -/
def Lockstep (c : Conn n) : Prop := ∀ i j, c.log i = c.log j

/-- The call is turned away by the first instance before that has executed anything, or
passes all instances but the last and is executed by that one too. -/
def Even (mark : Fin (n + 1) → Mark) : Prop :=
  mark ⟨0, n.succ_pos⟩ = .stopBefore ∨
    ((∀ i, i ≠ Fin.last n → mark i = .pass) ∧ mark (Fin.last n) ≠ .stopBefore)

theorem even_iff (mark : Fin (n + 1) → Mark) :
    Even mark ↔ reached mark (finRange (n + 1)) = [] ∨
      reached mark (finRange (n + 1)) = finRange (n + 1) := by
  rw [reached_eq_nil_iff, reached_eq_self_iff]
  refine or_congr ?_ (and_congr ?_ ?_)
  · simp [finRange_succ]
  · rw [finRange_succ_last, dropLast_concat]
    refine ⟨fun h i hi => ?_, fun h i hi => ?_⟩
    · obtain ⟨k, _, rfl⟩ := mem_map.mp hi
      exact h _ (Fin.ne_of_lt (Fin.castSucc_lt_last k))
    · obtain ⟨k, rfl⟩ := Fin.exists_castSucc_eq.mpr hi
      exact h _ (mem_map.mpr ⟨k, mem_finRange k, rfl⟩)
  · rw [finRange_succ_last]
    simp

/-- From equal logs, a call leads to equal logs exactly when it is even. -/
theorem lockstep_step {call : Call n} (hc : Lockstep c) (h : step args c call = .ok (c', r)) :
    Lockstep c' ↔ Even (call.mark args) := by
  have hlog := step_log h
  rw [even_iff]
  generalize hl : reached (call.mark args) (finRange (n + 1)) = l at hlog
  have hsub : l.Sublist (finRange (n + 1)) := hl ▸ reached_sublist _
  have hlog : ∀ i, c'.log i = c.log i ++ if i ∈ l then [call.statement] else [] := by
    intro i
    rw [hlog]
    rfl
  refine ⟨fun hc' => ?_, ?_⟩
  · -- A statement that reached one instance must have reached them all.
    have hall : ∀ i j, i ∈ l → j ∈ l := by
      intro i j hi
      have heq := hc' i j
      rw [hlog i, hlog j, hc i j, if_pos hi, append_cancel_left_eq] at heq
      by_contra hj
      rw [if_neg hj] at heq
      cases heq
    by_cases hnil : l = []
    · exact .inl hnil
    · obtain ⟨i, hi⟩ := exists_mem_of_ne_nil l hnil
      refine .inr (hsub.eq_of_length_le ?_)
      exact (subperm_of_subset (nodup_finRange _) fun j _ => hall i j hi).length_le
  · rintro (rfl | rfl)
    · intro i j
      rw [hlog i, hlog j, hc i j]
      simp
    · intro i j
      rw [hlog i, hlog j, hc i j, if_pos (mem_finRange i), if_pos (mem_finRange j)]

theorem lockstep_run (calls : List (Call n)) :
    ∀ {c c' : Conn n} {rs : List (Return n)}, Lockstep c →
      trace (step args) c calls = .ok (c', rs) →
      ((∀ k c₁ rs₁, trace (step args) c (calls.take k) = .ok (c₁, rs₁) → Lockstep c₁) ↔
        ∀ call ∈ calls, Even (call.mark args)) := by
  induction calls with
  | nil =>
    intro c c' rs hc _
    refine ⟨fun _ => nofun, fun _ k c₁ rs₁ h => ?_⟩
    rw [take_nil] at h
    cases h
    exact hc
  | cons call calls ih =>
    intro c c' rs hc h
    obtain ⟨c₁, r, rs₁, hstep, hrest, -⟩ := trace_cons_ok h
    rw [forall_mem_cons]
    refine ⟨fun hall => ?_, fun ⟨heven, hcalls⟩ => ?_⟩
    · have hc₁ : Lockstep c₁ := hall 1 c₁ [r] (trace_cons hstep rfl)
      refine ⟨(lockstep_step hc hstep).mp hc₁, (ih hc₁ hrest).mp ?_⟩
      intro k c₂ rs₂ hk
      exact hall (k + 1) c₂ (r :: rs₂) (trace_cons hstep hk)
    · have hc₁ : Lockstep c₁ := (lockstep_step hc hstep).mpr heven
      intro k c₂ rs₂ hk
      cases k with
      | zero =>
        cases hk
        exact hc
      | succ k =>
        obtain ⟨c₁', r', rs₂', hstep', hk, -⟩ := trace_cons_ok hk
        cases hstep.symm.trans hstep'
        exact (ih hc₁ hrest).mpr hcalls k c₂ rs₂' hk

/-- **Lockstep.**  Along a run from fresh connections all instances have executed the same
statements at each return exactly when every call of the run is even. -/
theorem compare_lockstep_iff {calls : List (Call n)} {rs : List (Return n)}
    (hrun : trace (step args) (Conn.init n) calls = .ok (c, rs)) :
    (∀ k c₁ rs₁, trace (step args) (Conn.init n) (calls.take k) = .ok (c₁, rs₁) → Lockstep c₁) ↔
      ∀ call ∈ calls, Even (call.mark args) :=
  lockstep_run calls (fun _ _ => rfl) hrun

/-- `DO 0` with the given answers of two instances. -/
def doQuery (first second : QueryAnswer) : Call 1 :=
  .query (Env.blank 1) [68, 79, 32, 48] 4 fun i => if i = 0 then first else second

theorem two_instances_stay_in_lockstep :
    ∃ c rs,
      trace (step strictArgs) (Conn.init 1) [doQuery (.noResult 0) (.noResult 0)] = .ok (c, rs) ∧
      Lockstep c := by
  obtain ⟨c, rs, hrun⟩ : ∃ c rs,
      trace (step strictArgs) (Conn.init 1) [doQuery (.noResult 0) (.noResult 0)] = .ok (c, rs) :=
    ⟨_, _, rfl⟩
  refine ⟨c, rs, hrun, (compare_lockstep_iff hrun).mpr ?_ 1 c rs hrun⟩
  intro call hcall
  obtain rfl := mem_singleton.mp hcall
  exact .inr ⟨by decide, by decide⟩

theorem refused_second_instance_falls_behind :
    ∃ c r, step strictArgs (Conn.init 1) (doQuery (.noResult 0) (.refused 1213)) = .ok (c, r) ∧
      c.log 0 = [[68, 79, 32, 48]] ∧ c.log 1 = [] ∧ ¬Lockstep c :=
  ⟨_, _, rfl, by decide, by decide, fun h => absurd (h 0 1) (by decide)⟩

end Sysbench.Compare
