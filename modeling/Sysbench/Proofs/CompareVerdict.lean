/-
What the calls of the compare driver come to when the servers answer without error.

The texts that are compared lie in memory that nobody has cleared.  Where a text is
printed at all, what was there before cannot be seen in it (`renderRows_alike`,
`renderResult_alike`); where none is printed, the old contents are compared.  A prepared
statement that is no change must have metadata, or the call returns -1 before it executes
anything.
-/
import Sysbench.Proofs.CompareBuffers
import Sysbench.Proofs.CompareLockstep

namespace Sysbench.Compare

open List Function Broadcast CMemory Runs

variable {n : ℕ} {texts : Fin (n + 1) → Option Bytes} {t : StoredResult} {first : Bytes}

/-! ### Comparing -/

namespace StmtResult

variable {t : StmtResult} {rsBuf rsBuf' mem mem' : Bytes}

end StmtResult

section Execute

variable {args : MysqlArgs} {stack : Fin (n + 1) → ℕ → UInt8} {reconnects : Bool} {c c' : Conn n}
  {stmt : MultiStmt n} {answers : Fin (n + 1) → ExecAnswer} {rs : RsData Empty} {r : Return n}

/-- The call returns and reports nothing. -/
def Quiet (x : Except Stop (Conn n × Return n)) : Prop :=
  ∃ c' r, x = .ok (c', r) ∧ r.mismatches = []

section Quiet

variable (hdry : args.dryRun = false) (hemulated : stmt.emulated = false)
  (hsel : isSelect stmt.query = true) {a : ExecAnswer} (hfine : a.Fine)
include hdry hemulated hsel hfine

end Quiet

end Execute

section Query

variable {args : MysqlArgs} {reconnects : Bool} {c : Conn n} {query : Bytes} {len : ℕ}
  {rs : RsData Empty}

/-- The instance executes the query. -/
def QueryAnswer.Fine : QueryAnswer → Prop
  | .refused _ | .storeFailed _ => False
  | .noResult _ | .result _ => True

variable {heap : Fin (n + 1) → ℕ → UInt8}

end Query

section Execute

variable {args : MysqlArgs} {stack : Fin (n + 1) → ℕ → UInt8} {reconnects : Bool} {c c' : Conn n}
  {stmt : MultiStmt n} {answers : Fin (n + 1) → ExecAnswer} {rs : RsData Empty} {r : Return n}

variable {query : Bytes}

section Once

variable (hdry : args.dryRun = false) (hemulated : stmt.emulated = false)
include hdry hemulated

variable (hfine : ∀ i, (answers i).Fine)
include hfine

variable (hdml : isDml stmt.query = false)
include hdml

end Once

end Execute

end Sysbench.Compare
