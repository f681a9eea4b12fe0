/-
The loops that write a query into a buffer as they go.

`pgsql_drv_prepare` replaces each `?` of a query by `$1`, `$2` and so on; `mysql_drv_execute`
and `pgsql_drv_execute` replace it by the text of a parameter where they emulate prepared
statements.  It is three times the same loop.  The buffer is allocated by the first byte of
the query and doubled when it is full; what does not fit is printed again, by `goto again`,
into a larger buffer.  The loops differ in what they print and in how the room that is left
becomes the size that `snprintf` is given.

All counters are `unsigned int` and wrap.  So does the size of the buffer, to zero, and what
`realloc` does then is up to the library; `alloc` says for each size whether it returns a
pointer.  What the new memory holds is up to `heap`.  A loop may go on forever, so it is a
machine, and `outcome` is the way it ends.
-/
import Sysbench.Lib.Machine
import Sysbench.Model.BindParams

namespace Sysbench.QueryBuffer

open CMemory SqlLiteral Sysbench.Bind

inductive Fault where
  /-- a write through a null pointer -/
  | nullBuffer
  /-- a write behind the end of the buffer -/
  | outOfBounds
  /-- an entry of `bound_param` is read that is not there -/
  | noParam
  deriving DecidableEq

inductive Outcome where
  /-- The terminator has been written; `buf` is the whole buffer. -/
  | built (buf : Bytes) (vcnt : ℕ)
  /-- `realloc` has returned NULL -/
  | noMemory
  | fault (f : Fault)
  deriving DecidableEq

/-- What is printed for a placeholder.  `db_print_value` prints nothing, not even a terminator,
for a type that it does not know. -/
inductive Piece where
  | nothing
  | text (bs : Bytes)

/-- What the loops differ in. -/
structure Loop where
  /-- what is printed for placeholder `vcnt`; none where it is not there -/
  piece : ℕ → Option Piece
  /-- the `size_t` that `snprintf` is given for `buflen - j` -/
  size : ℕ → ℕ

structure State where
  i : ℕ
  j : ℕ
  vcnt : ℕ
  buflen : ℕ
  needRealloc : Bool
  /-- none is NULL -/
  buf : Option Bytes

/-- `snprintf(mem + off, size, …)` of a text -/
def snprintf (mem : Bytes) (off size : ℕ) (text : Bytes) : Option Bytes :=
  if size = 0 then some mem else writeAt mem off (text.take (size - 1) ++ [0])

/-- Print into the room that is left: the memory, and whether the text has fit.  The room is
compared as an `int`, which is negative from `2 ^ 31` on. -/
def printPiece (size : ℕ → ℕ) (mem : Bytes) (off room : ℕ) : Piece → Option (Bytes × Bool)
  | .nothing => some (mem, decide (0 < room ∧ room < 2 ^ 31))
  | .text bs =>
    (snprintf mem off (size room) bs).map fun mem =>
      (mem, decide (bs.length < room ∧ room < 2 ^ 31))

def Piece.length : Piece → ℕ
  | .nothing => 0
  | .text bs => bs.length

/-- `realloc(buf, size)`: the old bytes and then anything. -/
def resize (heap : ℕ → UInt8) (buf : Option Bytes) (size : ℕ) : Bytes :=
  (List.range size).map fun k => ((buf.getD [])[k]?).getD (heap k)

/-- The next size of the buffer -/
def nextLen (buflen : ℕ) : ℕ := if 0 < buflen then buflen * 2 % 2 ^ 32 else 256

/-- From `again` to the byte of the query; none where `realloc` fails. -/
def reserve (alloc : ℕ → Bool) (heap : ℕ → UInt8) (s : State) : Option State :=
  if s.buflen ≤ (s.j + 1) % 2 ^ 32 ∨ s.needRealloc = true then
    if alloc (nextLen s.buflen) = true then
      some { s with
        buflen := nextLen s.buflen
        buf := some (resize heap s.buf (nextLen s.buflen))
        needRealloc := false }
    else none
  else some s

/-- `buf[j++] = query[i]`, and `i++` -/
def putByte (s : State) (c : UInt8) : State ⊕ Outcome :=
  match s.buf with
  | none => .inr (.fault .nullBuffer)
  | some mem =>
    match writeAt mem s.j [c] with
    | none => .inr (.fault .outOfBounds)
    | some mem =>
      .inl { s with i := (s.i + 1) % 2 ^ 32, j := (s.j + 1) % 2 ^ 32, buf := some mem }

/-- A placeholder, once there is room for a byte. -/
def putPiece (loop : Loop) (s : State) : State ⊕ Outcome :=
  match loop.piece s.vcnt, s.buf with
  | none, _ => .inr (.fault .noParam)
  | some _, none => .inr (.fault .nullBuffer)
  | some piece, some mem =>
    match printPiece loop.size mem s.j ((s.buflen + 2 ^ 32 - s.j) % 2 ^ 32) piece with
    | none => .inr (.fault .outOfBounds)
    | some (mem, false) => .inl { s with needRealloc := true, buf := some mem }
    | some (mem, true) =>
      .inl { s with
        i := (s.i + 1) % 2 ^ 32
        j := (s.j + piece.length) % 2 ^ 32
        vcnt := (s.vcnt + 1) % 2 ^ 32
        buf := some mem }

/-- `buf[j] = '\0'` behind the loop -/
def finish (s : State) : Outcome :=
  match s.buf with
  | none => .fault .nullBuffer
  | some mem =>
    match writeAt mem s.j [0] with
    | none => .fault .outOfBounds
    | some mem => .built mem s.vcnt

/-- One round of the loop, or one after `goto again`, where the byte of the query is the same. -/
def step (alloc : ℕ → Bool) (heap : ℕ → UInt8) (loop : Loop) (query : Bytes) (s : State) :
    State ⊕ Outcome :=
  match query[s.i]? with
  | none => .inr (finish s)
  | some c =>
    match reserve alloc heap s with
    | none => .inr .noMemory
    | some s => if c ≠ 63 then putByte s c else putPiece loop s

/-- In front of the loop, which counts placeholders from `vcnt` on. -/
def start (vcnt : ℕ) : State where
  i := 0
  j := 0
  vcnt := vcnt
  buflen := 0
  needRealloc := true
  buf := none

/-! ### Emulation -/

/-- What is not known here about printing: `%f`, and the bytes that `%s` finds behind a buffer
without NUL. -/
structure Printing where
  float : UInt32 → Bytes
  double : UInt64 → Bytes
  behind : Bytes → Bytes

/-- `%d` of an unsigned field. -/
def field (n : UInt32) : Bytes := signedDecimal n.toInt32.toInt

/-- `'%s'` -/
def stringText (P : Printing) (mem : Bytes) : Bytes := quoted (cstr (mem ++ P.behind mem))

/-- The `switch` of `db_print_value`. -/
def printedValue (P : Printing) (var : DbBind) : Piece :=
  if var.isNull = some true then .text [78, 85, 76, 76]
  else
    match var.buffer with
    | .none => .nothing
    | .tinyint v => .text (signedDecimal v.toInt)
    | .smallint v => .text (signedDecimal v.toInt)
    | .int v => .text (signedDecimal v.toInt)
    | .bigint v => .text (signedDecimal v.toInt)
    | .float bits => .text (P.float bits)
    | .double bits => .text (P.double bits)
    | .char mem => .text (stringText P mem)
    | .varchar mem => .text (stringText P mem)
    | .date tm => .text (quoted (field tm.year ++ [45] ++ field tm.month ++ [45] ++ field tm.day))
    | .time tm =>
      .text (quoted (field tm.hour ++ [58] ++ field tm.minute ++ [58] ++ field tm.second))
    | .datetime tm | .timestamp tm =>
      .text (quoted (field tm.year ++ [45] ++ field tm.month ++ [45] ++ field tm.day ++ [32] ++
        field tm.hour ++ [58] ++ field tm.minute ++ [58] ++ field tm.second))

/-- `(size_t) (int) n` -/
def sizeOfInt (n : ℕ) : ℕ := if n < 2 ^ 31 then n else n + 2 ^ 64 - 2 ^ 32

/-- The emulation, with `bound_param` as it is then; a null pointer has no entries. -/
def emulation (P : Printing) (boundParam : Option (List DbBind)) : Loop where
  piece vcnt := ((boundParam.getD [])[vcnt]?).map (printedValue P)
  size := sizeOfInt

/-- What an emulated `db_stmt_t` has. -/
structure EmulatedStmt where
  query : Bytes
  /-- none is NULL -/
  boundParam : Option (List DbBind)
  boundParamLen : ℕ

/-- `mysql_drv_prepare` and `pgsql_drv_prepare` of an emulated statement; the rest of it comes
from `calloc`. -/
def prepareEmulated (query : Bytes) : EmulatedStmt where
  query := cstr query
  boundParam := none
  boundParamLen := 0

/-- `mysql_drv_bind_param` and `pgsql_drv_bind_param` of an emulated statement; `malloc` says
whether the array can be allocated. -/
def bindParamEmulated (malloc : Bool) (stmt : EmulatedStmt) (params : List DbBind) :
    EmulatedStmt × ℤ :=
  if malloc = true then
    ({ stmt with boundParam := some params, boundParamLen := params.length }, 0)
  else ({ stmt with boundParam := none }, 1)

/-- The loop of `mysql_drv_execute` -/
def mysqlDrvExecute (P : Printing) (stmt : EmulatedStmt) : Loop := emulation P stmt.boundParam

/-- The loop of `pgsql_drv_execute` -/
def pgsqlDrvExecute (P : Printing) (stmt : EmulatedStmt) : Loop := emulation P stmt.boundParam

/-! ### Numbered placeholders -/

/-- `$%d`, of an `unsigned int` -/
def numberText (vcnt : ℕ) : Bytes := 36 :: signedDecimal (UInt32.ofNat vcnt).toInt32.toInt

/-- The loop of `pgsql_drv_prepare`. -/
def pgsqlDrvPrepare : Loop where
  piece vcnt := some (.text (numberText vcnt))
  size := id

/-- `stmt->query`, and what `pgsql_drv_prepare` sets in its `pg_stmt_t`. -/
structure PgStmt where
  query : Bytes
  nparams : ℤ
  prepared : Bool
  deriving DecidableEq

inductive PrepareOutcome where
  | prepared (stmt : PgStmt)
  /-- The server refuses a statement without parameters, and what was stored is freed again. -/
  | refused (stmt : PgStmt)
  | error
  | fault (f : Fault)
  deriving DecidableEq

/-- `pgsql_drv_prepare` behind the loop; `commandOk` is what `PQprepare` reports.  Other
allocations succeed. -/
def storeStmt (commandOk : Bool) : Outcome → PrepareOutcome
  | .noMemory => .error
  | .fault f => .fault f
  | .built buf vcnt =>
    let stmt : PgStmt :=
      { query := cstr buf, nparams := (UInt32.ofNat vcnt - 1).toInt32.toInt, prepared := false }
    if stmt.nparams = 0 then
      if commandOk then .prepared { stmt with prepared := true } else .refused stmt
    else .prepared stmt

end Sysbench.QueryBuffer
