/-
When `PQexecPrepared` is given the current values.

A buffer is either filled from the parameter as it is now or, if that is NULL, left alone.  So a
NULL is never passed as one: the pointer is that of the buffer, with whatever the last execution
has left in it.  And the terminator of a string goes where its length says, in the buffer or
not.  Otherwise the values are right, whatever has been executed before: `fillValue_right_iff` for
one parameter, and from it by induction on the loop for all of them.

`Sized` says what is known of a statement in every run: the buffers are there once it is
prepared, one for each parameter and all of the same length.
-/
import Sysbench.Lib.Runs
import Sysbench.Model.PgsqlParams
import Sysbench.Proofs.EmulatedQuery

namespace Sysbench.PgParams

open List CMemory Runs Sysbench.Bind SqlLiteral

/-! ### One value -/

/-- The text of a value: of an integer the number, of a string the bytes, as far as the length is
below the limit. -/
def currentText (var : DbBind) : Option Bytes :=
  match stringMem var.buffer with
  | some mem => if var.dataLen < maxParamLength then some (mem.take var.dataLen) else none
  | none => (intValue var.buffer).map signedDecimal

/-- What should be passed for a parameter: NULL, or its text with a terminator. -/
def PassedRight (var : DbBind) (value : Option Bytes) : Prop :=
  if var.isNull = some true then value = none
  else ∃ mem, value = some mem ∧
    ∀ text, currentText var = some text → mem.take (text.length + 1) = text ++ [0]

/-- A value that is there and has room in a buffer. -/
def Sendable (var : DbBind) : Prop :=
  var.isNull ≠ some true ∧ ((stringMem var.buffer).isSome = true → var.dataLen < maxParamLength)

variable {P : QueryBuffer.Printing}

variable {var : DbBind} {pvalue : Bytes}

theorem length_fillValue {pvalue' : Bytes} (h : fillValue P var pvalue = .ok pvalue') :
    pvalue'.length = pvalue.length := by
  unfold fillValue at h
  split at h
  · cases h
    rfl
  · split at h
    · dsimp only at h
      split at h
      · cases h
      · split at h
        · cases h
        · rename_i first hfirst
          split at h
          · cases h
          · rename_i second hsecond
            cases h
            rw [length_writeAt hsecond, length_writeAt hfirst]
    · split at h
      · cases h
        rfl
      · split at h
        · cases h
        · rename_i text hprinted printed hprint
          cases h
          unfold QueryBuffer.snprintf at hprint
          split at hprint
          · cases hprint
            rfl
          · exact length_writeAt hprint

/-- A string that fits is copied, with a NUL behind it. -/
theorem fillValue_string (hnull : var.isNull ≠ some true) {mem : Bytes}
    (hmem : stringMem var.buffer = some mem) (hsized : var.dataLen ≤ mem.length)
    (hlen : var.dataLen < maxParamLength) (hroom : pvalue.length = maxParamLength) :
    ∃ pvalue', fillValue P var pvalue = .ok pvalue' ∧
      pvalue'.take (var.dataLen + 1) = mem.take var.dataLen ++ [0] := by
  have hcopied : min maxParamLength var.dataLen = var.dataLen := Nat.min_eq_right hlen.le
  have htake : (mem.take var.dataLen).length = var.dataLen := by
    rw [length_take, Nat.min_eq_left hsized]
  obtain ⟨first, hfirst, hfirstLen⟩ := exists_writeAt
    (show 0 + (mem.take var.dataLen).length ≤ pvalue.length by omega)
  obtain ⟨second, hsecond, -⟩ := exists_writeAt
    (show var.dataLen + [(0 : UInt8)].length ≤ first.length by
      rw [length_singleton]
      omega)
  refine ⟨second, ?_, ?_⟩
  · simp only [fillValue, if_neg hnull, hmem, hcopied, if_neg (Nat.not_lt.mpr hsized), hfirst,
      hsecond]
  · have hfront := take_writeAt_append hfirst
    rw [htake, Nat.zero_add, take_zero] at hfront
    have hend := take_writeAt_append hsecond
    rwa [length_singleton, hfront] at hend

theorem fillValue_long (hnull : var.isNull ≠ some true) {mem : Bytes}
    (hmem : stringMem var.buffer = some mem) (hlen : maxParamLength ≤ var.dataLen)
    (hroom : pvalue.length = maxParamLength) : fillValue P var pvalue = .error .outOfBounds := by
  simp only [fillValue, if_neg hnull, hmem]
  split
  · rfl
  · split
    · rfl
    · rename_i first hfirst
      have hnone : writeAt first var.dataLen [0] = none := by
        rw [writeAt, if_neg]
        rw [length_writeAt hfirst, length_singleton]
        omega
      rw [hnone]

variable {n : ℤ}

theorem printedValue_int (hnull : var.isNull ≠ some true) (hint : intValue var.buffer = some n) :
    QueryBuffer.printedValue P var = .text (signedDecimal n) := by
  unfold QueryBuffer.printedValue
  rw [if_neg hnull]
  cases hbuffer : var.buffer with
  | tinyint v | smallint v | int v | bigint v =>
    rw [hbuffer] at hint
    cases hint
    rfl
  | _ =>
    rw [hbuffer] at hint
    cases hint

theorem natAbs_toInt_lt {w : ℕ} (hw : w ≤ 64) (x : BitVec w) : x.toInt.natAbs < 10 ^ 19 := by
  have hpow : 2 ^ w ≤ 2 ^ 64 := Nat.pow_le_pow_right (by decide) hw
  rw [BitVec.toInt_eq_toNat_cond]
  split
  · omega
  · omega

/-- No integer of the source has more than nineteen digits. -/
theorem natAbs_intValue_lt {buffer : BindBuffer} (hint : intValue buffer = some n) :
    n.natAbs < 10 ^ 19 := by
  cases buffer with
  | tinyint v | smallint v | int v | bigint v =>
    cases hint
    exact natAbs_toInt_lt (by decide) v.toBitVec
  | _ => cases hint

theorem fillValue_int (hnull : var.isNull ≠ some true) (hstring : stringMem var.buffer = none)
    (hint : intValue var.buffer = some n) (hroom : pvalue.length = maxParamLength) :
    ∃ pvalue', fillValue P var pvalue = .ok pvalue' ∧
      pvalue'.take ((signedDecimal n).length + 1) = signedDecimal n ++ [0] := by
  have hlen := length_signedDecimal_le (by decide) (natAbs_intValue_lt hint)
  have hall : (signedDecimal n).take (maxParamLength - 1) = signedDecimal n := by
    apply take_of_length_le
    unfold maxParamLength
    omega
  obtain ⟨printed, hprint, -⟩ := exists_writeAt
    (show 0 + (signedDecimal n ++ [0]).length ≤ pvalue.length by
      rw [length_append, length_singleton, hroom]
      unfold maxParamLength
      omega)
  refine ⟨printed, ?_, ?_⟩
  · simp only [fillValue, if_neg hnull, hstring, printedValue_int hnull hint,
      QueryBuffer.snprintf, hall, hprint]
    rfl
  · have hend := take_writeAt_append hprint
    rwa [Nat.zero_add, take_zero, nil_append, length_append,
      length_singleton] at hend

/-- **One value is passed right exactly if** it is not NULL and, as a string, not too long. -/
theorem fillValue_right_iff (param : Param) (hroom : pvalue.length = maxParamLength) :
    (∃ pvalue', fillValue P param.toDbBind pvalue = .ok pvalue' ∧
        PassedRight param.toDbBind (some pvalue')) ↔ Sendable param.toDbBind := by
  unfold PassedRight Sendable
  by_cases hnull : param.isNull = some true
  · refine iff_of_false ?_ fun h => h.1 hnull
    rintro ⟨pvalue', -, hright⟩
    rw [if_pos hnull] at hright
    cases hright
  · simp only [if_neg hnull]
    cases hmem : stringMem param.buffer with
    | some mem =>
      have hsized := param.sized mem hmem
      by_cases hlen : param.dataLen < maxParamLength
      · refine iff_of_true ?_ ⟨hnull, fun _ => hlen⟩
        obtain ⟨pvalue', hfill, htake⟩ := fillValue_string (P := P) hnull hmem hsized hlen hroom
        refine ⟨pvalue', hfill, pvalue', rfl, fun text htext => ?_⟩
        simp only [currentText, hmem, if_pos hlen, Option.some.injEq] at htext
        subst htext
        rw [length_take, Nat.min_eq_left hsized]
        exact htake
      · refine iff_of_false ?_ fun h => hlen (h.2 rfl)
        rintro ⟨pvalue', hfill, -⟩
        rw [fillValue_long hnull hmem (Nat.not_lt.mp hlen) hroom] at hfill
        cases hfill
    | none =>
      have hkind := param.kind
      rw [hmem] at hkind
      obtain ⟨n, hint⟩ := Option.isSome_iff_exists.mp (hkind.resolve_left nofun)
      refine iff_of_true ?_ ⟨hnull, nofun⟩
      obtain ⟨pvalue', hfill, htake⟩ := fillValue_int (P := P) hnull hmem hint hroom
      refine ⟨pvalue', hfill, pvalue', rfl, fun text htext => ?_⟩
      simp only [currentText, hmem, hint, Option.map_some, Option.some.injEq] at htext
      subst htext
      exact htake

/-! ### All values -/

/-- Bound parameters are strings and integers. -/
def AreParams (bound : List DbBind) : Prop := ∀ var ∈ bound, ∃ param : Param, param.toDbBind = var

variable {bound : List DbBind}

theorem fillValues_lengths {pvalues : List Bytes} :
    ∀ {i : ℕ} {values : List Bytes}, fillValues P bound i pvalues = .ok values →
      values.length = pvalues.length ∧
        ((∀ v ∈ pvalues, v.length = maxParamLength) → ∀ v ∈ values, v.length = maxParamLength) := by
  induction pvalues with
  | nil =>
    intro i values h
    cases h
    exact ⟨rfl, fun hall => hall⟩
  | cons pvalue pvalues ih =>
    intro i values h
    rw [fillValues] at h
    split at h
    · cases h
    · obtain ⟨first, hfirst, h⟩ := bind_eq_ok.mp h
      obtain ⟨rest, hrest, h⟩ := bind_eq_ok.mp h
      cases h
      obtain ⟨hlen, hrooms⟩ := ih hrest
      refine ⟨by rw [length_cons, length_cons, hlen], fun hall v hv => ?_⟩
      rw [forall_mem_cons] at hall
      rcases mem_cons.mp hv with rfl | hv
      · rw [length_fillValue hfirst]
        exact hall.1
      · exact hrooms hall.2 v hv

/-- The loop from parameter `i` on passes every value right exactly if they are there and can be
sent. -/
theorem fillValues_right_iff (hbound : AreParams bound) (pvalues : List Bytes) :
    ∀ {i : ℕ}, (∀ v ∈ pvalues, v.length = maxParamLength) →
      ((∃ values, fillValues P bound i pvalues = .ok values ∧
          ∀ k < pvalues.length, ∀ var, bound[i + k]? = some var →
            ∃ value, values[k]? = some value ∧ PassedRight var (some value)) ↔
        ∀ k < pvalues.length, ∃ var, bound[i + k]? = some var ∧ Sendable var) := by
  induction pvalues with
  | nil =>
    intro i _
    refine iff_of_true ⟨[], rfl, fun k hk => absurd hk (Nat.not_lt_zero k)⟩ fun k hk => ?_
    exact absurd hk (Nat.not_lt_zero k)
  | cons pvalue pvalues ih =>
    intro i hrooms
    rw [forall_mem_cons] at hrooms
    have hshift : ∀ k, i + (k + 1) = i + 1 + k := fun k => by omega
    constructor
    · rintro ⟨values, hfill, hright⟩
      rw [fillValues] at hfill
      split at hfill
      · cases hfill
      · rename_i var hvar
        obtain ⟨first, hfirst, hfill⟩ := bind_eq_ok.mp hfill
        obtain ⟨rest, hrest, hfill⟩ := bind_eq_ok.mp hfill
        cases hfill
        obtain ⟨param, rfl⟩ := hbound var (mem_of_getElem? hvar)
        have hlater := (ih hrooms.2).mp ⟨rest, hrest, fun k hk var' hvar' => by
          rw [← hshift] at hvar'
          exact hright (k + 1) (Nat.succ_lt_succ hk) var' hvar'⟩
        intro k hk
        cases k with
        | zero =>
          refine ⟨_, hvar, (fillValue_right_iff param hrooms.1).mp ⟨first, hfirst, ?_⟩⟩
          obtain ⟨value, hvalue, hpassed⟩ := hright 0 hk _ hvar
          cases hvalue
          exact hpassed
        | succ k =>
          rw [hshift]
          exact hlater k (Nat.lt_of_succ_lt_succ hk)
    · intro hall
      obtain ⟨var, hvar, hsend⟩ := hall 0 (Nat.succ_pos _)
      obtain ⟨param, rfl⟩ := hbound var (mem_of_getElem? hvar)
      obtain ⟨first, hfirst, hpassed⟩ := (fillValue_right_iff (P := P) param hrooms.1).mpr hsend
      obtain ⟨rest, hrest, hlater⟩ := (ih hrooms.2).mpr fun k hk => by
        rw [← hshift]
        exact hall (k + 1) (Nat.succ_lt_succ hk)
      refine ⟨first :: rest, ?_, fun k hk var' hvar' => ?_⟩
      · rw [Nat.add_zero] at hvar
        rw [fillValues, hvar]
        simp only [hfirst, hrest]
        rfl
      · cases k with
        | zero =>
          cases hvar.symm.trans hvar'
          exact ⟨first, rfl, hpassed⟩
        | succ k =>
          rw [hshift] at hvar'
          exact hlater k (Nat.lt_of_succ_lt_succ hk) var' hvar'

/-! ### Statements in a run -/

/-- The parameter that is bound as number `i`, as it is now. -/
def State.current (s : State) (stmt : Stmt) (i : ℕ) : Option DbBind :=
  (stmt.boundParam.getD [])[i]?.bind fun k => s.params[k]?.map Param.toDbBind

/-- What is known of a statement in a state that has been reached. -/
structure StmtOk (s : State) (stmt : Stmt) : Prop where
  bound : ∀ k ∈ stmt.boundParam.getD [], k < s.params.length
  prepared : stmt.prepared = true ↔ stmt.pvalues.isSome = true ∨ stmt.nparams = 0
  values : ∀ pvalues, stmt.pvalues = some pvalues →
    pvalues.length = stmt.nparams ∧ ∀ v ∈ pvalues, v.length = maxParamLength

def Sized (s : State) : Prop := ∀ stmt ∈ s.stmts, StmtOk s stmt

variable {s s' : State} {stmt : Stmt}

theorem StmtOk.mono (h : StmtOk s stmt) (hparams : s.params.length ≤ s'.params.length) :
    StmtOk s' stmt :=
  ⟨fun k hk => (h.bound k hk).trans_le hparams, h.prepared, h.values⟩

theorem stmtOk_prepare (s : State) (nparams : ℕ) : StmtOk s (pgsqlDrvPrepare nparams) := by
  refine ⟨nofun, ?_, nofun⟩
  simp [pgsqlDrvPrepare]

theorem stmtOk_bindParam (h : StmtOk s stmt) {params : List ℕ}
    (hparams : ∀ k ∈ params, k < s.params.length) (commandOk : Bool) (heap : ℕ → UInt8) :
    StmtOk s (pgsqlDrvBindParam commandOk heap stmt params).1 := by
  unfold pgsqlDrvBindParam
  split
  · exact ⟨hparams, h.prepared, h.values⟩
  · split
    · exact ⟨hparams, h.prepared, h.values⟩
    · split
      · refine ⟨hparams, by simp, fun pvalues hvalues => ?_⟩
        cases hvalues
        refine ⟨length_replicate, fun v hv => ?_⟩
        rw [eq_of_mem_replicate hv, length_map, length_range]
      · exact ⟨hparams, h.prepared, h.values⟩

theorem stmtOk_execute (h : StmtOk s stmt) {stmt' : Stmt} {values : Option (List (Option Bytes))}
    (hok : pgsqlDrvExecute P bound stmt = .ok (stmt', values)) : StmtOk s stmt' := by
  unfold pgsqlDrvExecute at hok
  cases hpvalues : stmt.pvalues with
  | none =>
    simp only [hpvalues] at hok
    obtain ⟨-, -, hok⟩ := bind_eq_ok.mp hok
    cases hok
    exact h
  | some pvalues =>
    simp only [hpvalues] at hok
    obtain ⟨filled, hfill, hok⟩ := bind_eq_ok.mp hok
    cases hok
    obtain ⟨hlen, hrooms⟩ := fillValues_lengths hfill
    obtain ⟨hcount, hold⟩ := h.values pvalues hpvalues
    refine ⟨h.bound, ?_, fun pvalues' hvalues => ?_⟩
    · rw [h.prepared, hpvalues]
      exact Iff.rfl
    · cases hvalues
      exact ⟨hlen.trans hcount, hrooms hold⟩

theorem sized_step (h : Sized s) {call : Call} {r : Result} (hstep : step P s call = .ok (s', r)) :
    Sized s' := by
  have hset : ∀ {k : ℕ} {stmt : Stmt}, StmtOk s stmt → ∀ stmt' ∈ s.stmts.set k stmt,
      StmtOk s stmt' := by
    intro k stmt hstmt stmt' hmem
    rcases mem_or_eq_of_mem_set hmem with hold | rfl
    · exact h stmt' hold
    · exact hstmt
  cases call with
  | create param =>
    cases hstep
    intro stmt hstmt
    refine (h stmt hstmt).mono ?_
    rw [length_append]
    exact Nat.le_add_right _ _
  | assign k param =>
    rw [step] at hstep
    split at hstep
    · cases hstep
    · split at hstep
      · cases hstep
        exact fun stmt hstmt => (h stmt hstmt).mono length_set.symm.le
      · cases hstep
        exact h
  | prepare nparams =>
    cases hstep
    intro stmt hstmt
    rcases mem_append.mp hstmt with hold | hnew
    · exact (h stmt hold).mono le_rfl
    · rw [mem_singleton.mp hnew]
      exact stmtOk_prepare _ nparams
  | bindParam k params commandOk heap =>
    rw [step] at hstep
    split at hstep
    · rename_i hvalid
      split at hstep
      · cases hstep
      · rename_i stmt hstmt
        cases hstep
        have hold := h stmt (mem_of_getElem? hstmt)
        have hparams : ∀ k ∈ params, k < s.params.length := fun k hk => by
          simpa using all_eq_true.mp hvalid k hk
        intro stmt' hmem
        exact (hset (stmtOk_bindParam hold hparams commandOk heap) stmt' hmem).mono le_rfl
    · cases hstep
  | execute k =>
    rw [step] at hstep
    split at hstep
    · cases hstep
    · rename_i stmt hstmt
      obtain ⟨⟨stmt', values⟩, hexec, hstep⟩ := bind_eq_ok.mp hstep
      cases hstep
      have hold := h stmt (mem_of_getElem? hstmt)
      intro stmt'' hmem
      exact (hset (stmtOk_execute hold hexec) stmt'' hmem).mono le_rfl

theorem sized_init : Sized State.init := nofun

theorem filterMap_getElem? {α β : Type*} {f : α → Option β} :
    ∀ {l : List α}, (∀ a ∈ l, (f a).isSome = true) → ∀ i : ℕ, (l.filterMap f)[i]? = l[i]?.bind f
  | [], _, i => rfl
  | a :: l, h, i => by
    obtain ⟨b, hb⟩ := Option.isSome_iff_exists.mp (h a mem_cons_self)
    rw [filterMap_cons, hb]
    cases i with
    | zero => exact hb.symm
    | succ i => exact filterMap_getElem? (fun a ha => h a (mem_cons_of_mem _ ha)) i

/-- The array that is read in a round has the parameters in the order they were bound in. -/
theorem bound_getElem? (h : StmtOk s stmt) (i : ℕ) : (s.bound stmt)[i]? = s.current stmt i := by
  refine filterMap_getElem? (fun k hk => ?_) i
  rw [getElem?_eq_getElem (h.bound k hk)]
  rfl

theorem areParams_bound (s : State) (stmt : Stmt) : AreParams (s.bound stmt) := by
  intro var hvar
  obtain ⟨k, -, hk⟩ := mem_filterMap.mp hvar
  obtain ⟨param, -, rfl⟩ := Option.map_eq_some_iff.mp hk
  exact ⟨param, rfl⟩

/-! ### Executions -/

theorem bound_of_skipValues {bound : List DbBind} :
    ∀ {is : List ℕ}, skipValues bound is = .ok () → ∀ i ∈ is, ∃ var, bound[i]? = some var
  | [], _, i, hi => nomatch hi
  | j :: is, h, i, hi => by
    rw [skipValues] at h
    split at h
    · cases h
    · rename_i var hvar
      split at h
      · rcases mem_cons.mp hi with rfl | hmem
        · exact ⟨var, hvar⟩
        · exact bound_of_skipValues h i hmem
      · cases h

/-- An execution stays inside its buffers and passes for every parameter what it is now. -/
def SendsCurrent (P : QueryBuffer.Printing) (s : State) (k : ℕ) (stmt : Stmt) : Prop :=
  ∃ s' passed, step P s (.execute k) = .ok (s', .passed passed) ∧
    ∀ i < stmt.nparams, ∀ var, s.current stmt i = some var →
      ∃ values value, passed = some values ∧ values.length = stmt.nparams ∧
        values[i]? = some value ∧ PassedRight var value

variable {k : ℕ}

theorem step_execute (hstmt : s.stmts[k]? = some stmt) :
    step P s (.execute k) = (do
      let (stmt, values) ← pgsqlDrvExecute P (s.bound stmt) stmt
      pure ({ s with stmts := s.stmts.set k stmt }, .passed values)) := by
  simp only [step, hstmt]

/-- Getting past every parameter is not enough: without buffers no value is passed. -/
theorem sendsCurrent_iff_of_none (hok : StmtOk s stmt) (hstmt : s.stmts[k]? = some stmt)
    (hpvalues : stmt.pvalues = none) : SendsCurrent P s k stmt ↔ stmt.nparams = 0 := by
  have hexec : pgsqlDrvExecute P (s.bound stmt) stmt = (do
      skipValues (s.bound stmt) (range stmt.nparams)
      pure (stmt, none)) := by
    simp only [pgsqlDrvExecute, hpvalues]
  constructor
  · rintro ⟨s', passed, hresult, hright⟩
    rw [step_execute hstmt, hexec] at hresult
    obtain ⟨⟨stmt', passed'⟩, hdone, hresult⟩ := bind_eq_ok.mp hresult
    obtain ⟨_, hskip, hdone⟩ := bind_eq_ok.mp hdone
    cases hdone
    cases hresult
    by_contra hparams
    obtain ⟨var, hvar⟩ := bound_of_skipValues hskip 0 (mem_range.mpr (by omega))
    rw [bound_getElem? hok] at hvar
    obtain ⟨values, value, hnone, -⟩ := hright 0 (by omega) var hvar
    cases hnone
  · intro hzero
    refine ⟨{ s with stmts := s.stmts.set k stmt }, none, ?_, fun i hi => ?_⟩
    · rw [step_execute hstmt, hexec, hzero]
      rfl
    · omega

/-- With buffers, the loop decides. -/
theorem sendsCurrent_iff_of_some (hok : StmtOk s stmt) (hstmt : s.stmts[k]? = some stmt)
    {pvalues : List Bytes} (hpvalues : stmt.pvalues = some pvalues) :
    SendsCurrent P s k stmt ↔
      ∀ i < stmt.nparams, ∃ var, s.current stmt i = some var ∧ Sendable var := by
  obtain ⟨hcount, hrooms⟩ := hok.values pvalues hpvalues
  have hexec : pgsqlDrvExecute P (s.bound stmt) stmt = (do
      let pvalues ← fillValues P (s.bound stmt) 0 pvalues
      pure ({ stmt with pvalues := some pvalues }, some (pvalues.map some))) := by
    simp only [pgsqlDrvExecute, hpvalues]
  have hloop := fillValues_right_iff (P := P) (areParams_bound s stmt) pvalues (i := 0) hrooms
  simp only [Nat.zero_add, bound_getElem? hok, hcount] at hloop
  rw [← hloop]
  constructor
  · rintro ⟨s', passed, hresult, hright⟩
    rw [step_execute hstmt, hexec] at hresult
    obtain ⟨⟨stmt', passed'⟩, hfilled, hresult⟩ := bind_eq_ok.mp hresult
    obtain ⟨filled, hfill, hpure⟩ := bind_eq_ok.mp hfilled
    cases hpure
    cases hresult
    refine ⟨filled, hfill, fun i hi var hvar => ?_⟩
    obtain ⟨values, value, hvalues, -, hvalue, hpassed⟩ := hright i hi var hvar
    cases hvalues
    rw [getElem?_map] at hvalue
    obtain ⟨mem, hmem, rfl⟩ := Option.map_eq_some_iff.mp hvalue
    exact ⟨mem, hmem, hpassed⟩
  · rintro ⟨filled, hfill, hright⟩
    refine ⟨{ s with stmts := s.stmts.set k { stmt with pvalues := some filled } },
      some (filled.map some), ?_, fun i hi var hvar => ?_⟩
    · rw [step_execute hstmt, hexec, hfill]
      rfl
    · obtain ⟨value, hvalue, hpassed⟩ := hright i hi var hvar
      refine ⟨_, some value, rfl, ?_, by rw [getElem?_map, hvalue]; rfl, hpassed⟩
      rw [length_map, (fillValues_lengths hfill).1, hcount]

/-- **An execution sends the current values exactly if** the statement is prepared and every
parameter is bound, not NULL and, as a string, shorter than its buffer: in every state of every
run, whatever has been executed before. -/
theorem execute_sends_current_iff (P : QueryBuffer.Printing) {s : State}
    (hrun : Reach (step P) (fun _ _ => True) State.init s) {k : ℕ} {stmt : Stmt}
    (hstmt : s.stmts[k]? = some stmt) :
    SendsCurrent P s k stmt ↔
      stmt.prepared = true ∧
        ∀ i < stmt.nparams, ∃ var, s.current stmt i = some var ∧ Sendable var := by
  have hsized : Sized s := hrun.invariant sized_init fun hs _ hstep => sized_step hs hstep
  have hok := hsized stmt (mem_of_getElem? hstmt)
  have hprepared := hok.prepared
  cases hpvalues : stmt.pvalues with
  | none =>
    rw [sendsCurrent_iff_of_none hok hstmt hpvalues]
    simp only [hpvalues, Option.isSome_none, Bool.false_eq_true, false_or] at hprepared
    rw [hprepared]
    refine ⟨fun hzero => ⟨hzero, fun i hi => ?_⟩, fun h => h.1⟩
    omega
  | some pvalues =>
    rw [sendsCurrent_iff_of_some hok hstmt hpvalues]
    rw [hpvalues] at hprepared
    exact (and_iff_right (hprepared.mpr (.inl rfl))).symm

/-- A parameter of type `bigint`. -/
def bigintParam (value : Int64) (isNull : Bool) : Param where
  buffer := .bigint value
  dataLen := 0
  maxLen := 8
  isNull := some isNull
  kind := .inr rfl
  sized := nofun

/-- The parameter is bound, executed and then changed. -/
def changedOnce (param changed : Param) : List Call :=
  [.create param, .prepare 1, .bindParam 0 [0] true fun _ => 0, .execute 0, .assign 0 changed]

/-- After an execution with 4. -/
theorem five_sends_current :
    ∃ s results stmt, trace (step QueryBuffer.plainPrinting) State.init
        (changedOnce (bigintParam 4 false) (bigintParam 5 false)) = .ok (s, results) ∧
      s.stmts[0]? = some stmt ∧ SendsCurrent QueryBuffer.plainPrinting s 0 stmt := by
  have hrun : ((trace (step QueryBuffer.plainPrinting) State.init
      (changedOnce (bigintParam 4 false) (bigintParam 5 false))).toOption.any fun p =>
        p.1.stmts[0]?.any fun stmt => stmt.prepared && stmt.nparams == 1 &&
          (p.1.current stmt 0).any fun var =>
            var.isNull == some false && !(stringMem var.buffer).isSome) = true := by
    decide +kernel
  obtain ⟨⟨s, results⟩, htrace, hs⟩ := exists_ok_of_any hrun
  simp only [Option.any_eq_true, Bool.and_eq_true, beq_iff_eq, Bool.not_eq_true'] at hs
  obtain ⟨stmt, hstmt, ⟨hprepared, hone⟩, var, hvar, hnull, hint⟩ := hs
  refine ⟨s, results, stmt, htrace, hstmt, ?_⟩
  refine (execute_sends_current_iff _ (Reach.refl.of_trace htrace) hstmt).mpr ⟨hprepared, ?_⟩
  intro i hi
  obtain rfl : i = 0 := by omega
  exact ⟨var, hvar, by simp [hnull], by simp [hint]⟩

/-- A string that fills its buffer. -/
def longParam : Param where
  buffer := .varchar (List.replicate 256 97)
  dataLen := 256
  maxLen := 256
  isNull := some false
  kind := .inl rfl
  sized := by
    intro mem h
    cases h
    exact length_replicate.ge

/-- The first byte of each buffer that is passed. -/
def Result.firstBytes : Result → List (Option UInt8)
  | .passed (some values) => values.map fun value => value.bind List.head?
  | _ => []

/-- What is passed when the parameter is executed, changed and executed again. -/
def executedTwice (param changed : Param) : Except Fault (List (List (Option UInt8))) :=
  (trace (step QueryBuffer.plainPrinting) State.init
    (changedOnce param changed ++ [.execute 0])).map fun p => p.2.map Result.firstBytes

/-- A NULL after 5 is passed as 5, and a string of the length of the buffer is terminated behind
it. -/
theorem stale_and_overlong :
    executedTwice (bigintParam 5 false) (bigintParam 5 true)
      = .ok [[], [], [], [some 53], [], [some 53]] ∧
    executedTwice longParam longParam = .error .outOfBounds := by
  decide +kernel

end Sysbench.PgParams
