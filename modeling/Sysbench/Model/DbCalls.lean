/-
The entry points of the database layer as one step function.

A run is any sequence of calls on one connection.  Handles are the caller's: a call
with a statement that was closed, or on a connection that was freed, faults before
anything else happens.
-/
import Sysbench.Model.BulkInsert

namespace Sysbench

inductive DbCall where
  | prepare (query : Bytes)
  | bindParam (stmt len : ℕ)
  | bindResult (stmt len : ℕ)
  | execute (stmt : ℕ)
  | stmtNextResult (stmt : ℕ)
  | fetchRow
  | query (text : Bytes) (len : ℕ)
  | moreResults
  | nextResult
  | freeResults
  | close (stmt : ℕ)
  | bulkInsertInit (query : Bytes) (queryLen : ℕ) (malloc : Option (ℕ → UInt8))
  | bulkInsertNext (query : Bytes) (queryLen : ℕ)
  | bulkInsertDone
  | connectionReconnect
  | connectionClose
  | connectionFree

/-- What a call returns. -/
inductive DbRet where
  | code (rc : ℤ)
  | stmt (s : Option ℕ)
  /-- a pointer to the result set, or NULL -/
  | result (rs : Bool)
  | row (values : Option (List (Option Bytes)))
  | more (b : Bool)
  | void

variable {σ δ ρ : Type}

/-- Follow a statement handle. -/
def World.stmt (w : World σ δ ρ) (stmt : ℕ) : Except Fault δ :=
  match w.stmts stmt with
  | none => .error .danglingStmt
  | some d => .ok d

/-- A call on a connection that is still allocated. -/
def dbCall (D : Driver σ δ ρ) (w : World σ δ ρ) : DbCall → Except Fault (World σ δ ρ × DbRet)
  | .prepare query => pure ((dbPrepare D w query).1, .stmt (dbPrepare D w query).2)
  | .bindParam stmt len => do
    let d ← w.stmt stmt
    pure ((dbBindParam D w stmt d len).1, .code (dbBindParam D w stmt d len).2)
  | .bindResult stmt len => do
    let d ← w.stmt stmt
    pure ((dbBindResult D w stmt d len).1, .code (dbBindResult D w stmt d len).2)
  | .execute stmt => do
    let d ← w.stmt stmt
    let (w, rs) ← dbExecute D w stmt d
    pure (w, .result rs)
  | .stmtNextResult stmt => do
    let d ← w.stmt stmt
    let (w, rs) ← dbStmtNextResult D w stmt d
    pure (w, .result rs)
  | .fetchRow => do
    let (w, values) ← dbFetchRow D w
    pure (w, .row values)
  | .query text len => do
    let (w, rs) ← dbQuery D w text len
    pure (w, .result rs)
  | .moreResults => pure ((dbMoreResults D w).1, .more (dbMoreResults D w).2)
  | .nextResult => do
    let (w, rs) ← dbNextResult D w
    pure (w, .result rs)
  | .freeResults => do
    let (w, rc) ← dbFreeResults D w
    pure (w, .code rc)
  | .close stmt => do
    let d ← w.stmt stmt
    let (w, rc) ← dbClose D w stmt d
    pure (w, .code rc)
  | .bulkInsertInit query len malloc => do
    let (w, rc) ← dbBulkInsertInit D w query len malloc
    pure (w, .code rc)
  | .bulkInsertNext query len => do
    let (w, rc) ← dbBulkInsertNext D w query len
    pure (w, .code rc)
  | .bulkInsertDone => do
    let (w, rc) ← dbBulkInsertDone D w
    pure (w, .code rc)
  | .connectionReconnect => do
    let (w, rc) ← dbConnectionReconnect D w
    pure (w, .code rc)
  | .connectionClose => do
    let (w, rc) ← dbConnectionClose D w
    pure (w, .code rc)
  | .connectionFree => do
    let w ← dbConnectionFree D w
    pure (w, .void)

def dbStep (D : Driver σ δ ρ) (w : World σ δ ρ) (c : DbCall) : Except Fault (World σ δ ρ × DbRet) :=
  if w.freed then .error .danglingConn else dbCall D w c

end Sysbench
