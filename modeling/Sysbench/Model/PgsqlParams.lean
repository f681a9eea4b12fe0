/-
The values that `pgsql_drv_execute` passes for the parameters of a prepared statement.

`bind_param` copies the `db_bind_t` of each parameter, with pointers to a buffer, a length and
a NULL flag that belong to the script; the script changes what they point to between two
executions, with `sql_param.set` for one.  Here a parameter is a number, and `assign` is any
such change.  Its type has been copied and stays.

For each parameter the driver has a buffer of its own, which it allocates when the statement is
prepared on the server and fills before each execution.  `PQexecPrepared` is given the array of
these buffers.  Failing allocations, `PQprepare`'s part in `pgsql_drv_prepare` and the name and
the text of the statement are left out; so is what the server answers.
-/
import Sysbench.Model.QueryBuffer

namespace Sysbench.PgParams

open CMemory Sysbench.Bind

def maxParamLength : ℕ := 256

inductive Fault where
  /-- a null pointer is followed -/
  | nullPointer
  | outOfBounds
  deriving DecidableEq

/-! ### Parameters -/

/-- The buffer of a string. -/
def stringMem : BindBuffer → Option Bytes
  | .char mem | .varchar mem => some mem
  | _ => none

/-- The number in the buffer of an integer. -/
def intValue : BindBuffer → Option ℤ
  | .tinyint v => some v.toInt
  | .smallint v => some v.toInt
  | .int v => some v.toInt
  | .bigint v => some v.toInt
  | _ => none

/-- A string or an integer, and for a string as many bytes as its length says. -/
structure Param extends DbBind where
  kind : (stringMem buffer).isSome = true ∨ (intValue buffer).isSome = true
  sized : ∀ mem, stringMem buffer = some mem → dataLen ≤ mem.length

/-! ### Statements -/

/-- `db_stmt_t` with its `pg_stmt_t`.  Null pointers are none. -/
structure Stmt where
  nparams : ℕ
  prepared : Bool
  pvalues : Option (List Bytes)
  /-- the numbers of the parameters in `bound_param` -/
  boundParam : Option (List ℕ)

/-- `pgsql_drv_prepare`; a statement without parameters is prepared on the server at once. -/
def pgsqlDrvPrepare (nparams : ℕ) : Stmt where
  nparams := nparams
  prepared := decide (nparams = 0)
  pvalues := none
  boundParam := none

/-- `pgsql_drv_bind_param`; `commandOk` is what `PQprepare` reports and `heap` what fresh memory
holds. -/
def pgsqlDrvBindParam (commandOk : Bool) (heap : ℕ → UInt8) (stmt : Stmt) (params : List ℕ) :
    Stmt × ℤ :=
  let bound := { stmt with boundParam := some params }
  if stmt.prepared = true then (bound, 0)
  else if stmt.nparams ≠ params.length then (bound, 1)
  else if commandOk = true then
    ({ bound with
        pvalues := some (List.replicate stmt.nparams ((List.range maxParamLength).map heap))
        prepared := true }, 0)
  else (bound, 1)

/-- One round of the loop of `pgsql_drv_execute`: the value of a parameter into its buffer. -/
def fillValue (P : QueryBuffer.Printing) (var : DbBind) (pvalue : Bytes) : Except Fault Bytes :=
  if var.isNull = some true then .ok pvalue
  else
    match stringMem var.buffer with
    | some mem =>
      let copied := min maxParamLength var.dataLen
      if mem.length < copied then .error .outOfBounds
      else
        match writeAt pvalue 0 (mem.take copied) with
        | none => .error .outOfBounds
        | some pvalue =>
          match writeAt pvalue var.dataLen [0] with
          | none => .error .outOfBounds
          | some pvalue => .ok pvalue
    | none =>
      match QueryBuffer.printedValue P var with
      | .nothing => .ok pvalue
      | .text text =>
        match QueryBuffer.snprintf pvalue 0 maxParamLength text with
        | none => .error .outOfBounds
        | some pvalue => .ok pvalue

/-- The loop, from parameter `i` on; `bound` are the parameters as they are now. -/
def fillValues (P : QueryBuffer.Printing) (bound : List DbBind) :
    ℕ → List Bytes → Except Fault (List Bytes)
  | _, [] => .ok []
  | i, pvalue :: pvalues =>
    match bound[i]? with
    | none => .error .outOfBounds
    | some var => do
      let pvalue ← fillValue P var pvalue
      let pvalues ← fillValues P bound (i + 1) pvalues
      pure (pvalue :: pvalues)

/-- The loop over the parameters `is` when there is no array of buffers: a round gets past a NULL
parameter only. -/
def skipValues (bound : List DbBind) : List ℕ → Except Fault Unit
  | [] => .ok ()
  | i :: is =>
    match bound[i]? with
    | none => .error .outOfBounds
    | some var => if var.isNull = some true then skipValues bound is else .error .nullPointer

/-- `pgsql_drv_execute` without emulation, up to `PQexecPrepared`: the array `paramValues`, with
the buffers as they are then. -/
def pgsqlDrvExecute (P : QueryBuffer.Printing) (bound : List DbBind) (stmt : Stmt) :
    Except Fault (Stmt × Option (List (Option Bytes))) :=
  match stmt.pvalues with
  | none => do
    skipValues bound (List.range stmt.nparams)
    pure (stmt, none)
  | some pvalues => do
    let pvalues ← fillValues P bound 0 pvalues
    pure ({ stmt with pvalues := some pvalues }, some (pvalues.map some))

/-! ### Runs -/

structure State where
  params : List Param
  stmts : List Stmt

def State.init : State := { params := [], stmts := [] }

/-- The parameters that have been bound, as they are now. -/
def State.bound (s : State) (stmt : Stmt) : List DbBind :=
  (stmt.boundParam.getD []).filterMap fun k => s.params[k]?.map Param.toDbBind

inductive Call where
  | create (param : Param)
  | assign (k : ℕ) (param : Param)
  | prepare (nparams : ℕ)
  | bindParam (stmt : ℕ) (params : List ℕ) (commandOk : Bool) (heap : ℕ → UInt8)
  | execute (stmt : ℕ)

inductive Result where
  | done
  | code (rc : ℤ)
  /-- `paramValues` of `PQexecPrepared`, none if it is NULL -/
  | passed (values : Option (List (Option Bytes)))

def step (P : QueryBuffer.Printing) (s : State) : Call → Except Fault (State × Result)
  | .create param => .ok ({ s with params := s.params ++ [param] }, .done)
  | .assign k param =>
    match s.params[k]? with
    | none => .error .nullPointer
    | some old =>
      if param.buffer.type = old.buffer.type then
        .ok ({ s with params := s.params.set k param }, .done)
      else .ok (s, .done)
  | .prepare nparams => .ok ({ s with stmts := s.stmts ++ [pgsqlDrvPrepare nparams] }, .done)
  | .bindParam k params commandOk heap =>
    if params.all (· < s.params.length) then
      match s.stmts[k]? with
      | none => .error .nullPointer
      | some stmt =>
        let (stmt, rc) := pgsqlDrvBindParam commandOk heap stmt params
        .ok ({ s with stmts := s.stmts.set k stmt }, .code rc)
    else .error .nullPointer
  | .execute k =>
    match s.stmts[k]? with
    | none => .error .nullPointer
    | some stmt => do
      let (stmt, values) ← pgsqlDrvExecute P (s.bound stmt) stmt
      pure ({ s with stmts := s.stmts.set k stmt }, .passed values)

end Sysbench.PgParams
