/-
The database abstraction layer of `db_driver.c`.

One connection, the prepared statements made on it, and the driver under it.  The
driver is a parameter: a `Driver` answers every operation from a state of its own,
so a statement about every driver is a statement about every sequence of responses.
What a driver may write of a `db_result_t` is `RsData`; `rs.statement` and
`con->state` belong to the layer and no driver of the repository touches them.

A call that leaves C's defined behaviour faults: a statement or connection used after
it was freed, a write outside an allocated array, a call through a null operation.
Every driver operation is recorded in `log` as it is made.
-/
import Mathlib.Algebra.Group.Int.Defs
import Mathlib.Algebra.Group.Nat.Defs

namespace Sysbench

abbrev Bytes := List UInt8

inductive SbCounterType where
  | other
  | read
  | write
  | event
  | error
  | reconnect
  | bytesRead
  | bytesWritten
  deriving DecidableEq

inductive DbError where
  | none
  | ignorable
  | fatal
  deriving DecidableEq

/-- The value of a `db_error_t` where it is returned as an `int`. -/
def DbError.code : DbError → ℤ
  | .none => 0
  | .ignorable => 1
  | .fatal => 2

inductive DbConnState where
  | ready
  | resultSet
  | invalid
  deriving DecidableEq

/-- The fields of `db_result_t` that drivers write.  `ptr` is the driver's own result. -/
structure RsData (ρ : Type) where
  counter : SbCounterType
  nrows : ℕ
  nfields : ℕ
  ptr : Option ρ

/-- `db_result_t`.  Of the row buffer, the number of values it was allocated for. -/
structure DbResult (ρ : Type) extends RsData ρ where
  statement : Option ℕ
  rowValues : Option ℕ

/-- `db_conn_t`.  `bulk_buffer` is the memory it points to, `none` for NULL. -/
structure DbConn (ρ : Type) where
  error : DbError
  rs : DbResult ρ
  state : DbConnState
  bulkCnt : ℕ
  bulkBuflen : ℕ
  bulkBuffer : Option Bytes
  bulkPtr : ℕ
  bulkValues : ℕ
  bulkCommitCnt : ℕ
  bulkCommitMax : ℕ

/-- `drv_caps_t`; the layer itself asks for this one capability only. -/
structure DrvCaps where
  needsCommit : Bool

/-- What a pointer to a prepared statement leads to. -/
inductive StmtRef (δ : Type) where
  | null
  | dangling
  | live (stmt : δ)

/-- `drv_ops_t`, over a driver state `σ`, the driver's fields `δ` of a statement and its
results `ρ`.  An operation the table may leave out is an `Option`.  `fetchRow` and
`freeResults` follow pointers and answer `none` where that is undefined. -/
structure Driver (σ δ ρ : Type) where
  describe : Option (σ → ℤ × DrvCaps)
  connect : σ → σ × ℤ
  disconnect : σ → σ × ℤ
  reconnect : Option (σ → σ × ℤ)
  prepare : σ → Bytes → σ × ℤ × δ
  bindParam : σ → δ → ℕ → σ × ℤ × δ
  bindResult : σ → δ → ℕ → σ × ℤ
  execute : σ → δ → RsData ρ → σ × DbError × RsData ρ
  stmtNextResult : Option (σ → δ → RsData ρ → σ × DbError × RsData ρ)
  fetchRow : Option (σ → RsData ρ → Option (σ × ℤ × List (Option Bytes)))
  query : σ → Bytes → ℕ → RsData ρ → σ × DbError × RsData ρ
  moreResults : Option (σ → σ × Bool)
  nextResult : Option (σ → RsData ρ → σ × DbError × RsData ρ)
  freeResults : σ → StmtRef δ → RsData ρ → Option (σ × ℤ × RsData ρ)
  close : σ → δ → σ × ℤ

/-- A driver operation, as recorded. -/
inductive DriverOp where
  | describe
  | connect
  | disconnect
  | reconnect
  | prepare
  | bindParam (stmt : ℕ)
  | bindResult (stmt : ℕ)
  | execute (stmt : ℕ)
  | stmtNextResult (stmt : ℕ)
  | fetchRow
  /-- the memory the query starts at, and the length passed with it -/
  | query (text : Bytes) (len : ℕ)
  | moreResults
  | nextResult
  | freeResults
  | close (stmt : ℕ)
  deriving DecidableEq

/-- How a call can leave defined behaviour. -/
inductive Fault where
  | danglingConn
  | danglingStmt
  | nullOp
  | outOfBounds
  | driver
  deriving DecidableEq

/-- A connection with everything its calls can reach. -/
structure World (σ δ ρ : Type) where
  con : DbConn ρ
  /-- has `db_connection_free` released the connection? -/
  freed : Bool
  /-- the statements that are allocated -/
  stmts : ℕ → Option δ
  nextStmt : ℕ
  counters : SbCounterType → ℕ
  drv : σ
  log : List DriverOp

variable {σ δ ρ : Type}

namespace World

def record (w : World σ δ ρ) (op : DriverOp) : World σ δ ρ := { w with log := w.log ++ [op] }

/-- `sb_counter_inc` for the connection's thread. -/
def sbCounterInc (w : World σ δ ρ) (c : SbCounterType) : World σ δ ρ :=
  { w with counters := fun c' => if c' = c then (w.counters c' + 1) % 2 ^ 64 else w.counters c' }

def setState (w : World σ δ ρ) (s : DbConnState) : World σ δ ρ := { w with con.state := s }

def setError (w : World σ δ ρ) (e : DbError) : World σ δ ρ := { w with con.error := e }

def setStatement (w : World σ δ ρ) (stmt : Option ℕ) : World σ δ ρ :=
  { w with con.rs.statement := stmt }

/-- Follow `rs.statement`. -/
def statementRef (w : World σ δ ρ) : StmtRef δ :=
  match w.con.rs.statement with
  | none => .null
  | some s =>
    match w.stmts s with
    | none => .dangling
    | some d => .live d

end World

/-- A connection as `calloc` leaves it. -/
def DbConn.init : DbConn ρ where
  error := .none
  rs := { counter := .other, nrows := 0, nfields := 0, ptr := none,
          statement := none, rowValues := none }
  state := .ready
  bulkCnt := 0
  bulkBuflen := 0
  bulkBuffer := none
  bulkPtr := 0
  bulkValues := 0
  bulkCommitCnt := 0
  bulkCommitMax := 0

def dbConnectionCreate (D : Driver σ δ ρ) (drv : σ) : Option (World σ δ ρ) :=
  let (drv, rc) := D.connect drv
  if rc ≠ 0 then none
  else some
    { con := DbConn.init, freed := false, stmts := fun _ => none, nextStmt := 0,
      counters := fun _ => 0, drv := drv, log := [.connect] }

/-! ### Releasing a result set -/

def dbFreeResultsInt (D : Driver σ δ ρ) (w : World σ δ ρ) : Except Fault (World σ δ ρ × ℤ) :=
  match D.freeResults w.drv w.statementRef w.con.rs.toRsData with
  | none => .error .driver
  | some (drv, rc, data) =>
    let w := w.record .freeResults
    .ok ({ w with
      drv := drv
      con.rs := { data with nrows := 0, nfields := 0, statement := none, rowValues := none }
      con.state := .ready }, rc)

/-- The guard most calls begin with, once the connection is known to be open: release
the result set in progress.  Did that succeed? -/
def releaseResults (D : Driver σ δ ρ) (w : World σ δ ρ) : Except Fault (World σ δ ρ × Bool) :=
  if w.con.state = .resultSet then do
    let (w, rc) ← dbFreeResultsInt D w
    pure (w, decide (rc = 0))
  else pure (w, true)

def dbFreeResults (D : Driver σ δ ρ) (w : World σ δ ρ) : Except Fault (World σ δ ρ × ℤ) :=
  match w.con.state with
  | .invalid => pure (w, 1)
  | .ready => pure (w, 1)
  | .resultSet => dbFreeResultsInt D w

/-! ### Operations that may produce a result set

`db_execute`, `db_stmt_next_result`, `db_query` and `db_next_result` end alike.
-/

/-- The code after the driver's answer: is there a result set to return? -/
def World.answered (w : World σ δ ρ) (answer : σ × DbError × RsData ρ) : World σ δ ρ × Bool :=
  let (drv, error, data) := answer
  let w := { w with drv := drv, con.error := error, con.rs.toRsData := data }
  let w := w.sbCounterInc data.counter
  if error = .none then
    if data.counter = .read then (w.setState .resultSet, true) else (w.setState .ready, false)
  else (w, false)

/-- `db_execute`, for a statement that is allocated. -/
def dbExecute (D : Driver σ δ ρ) (w : World σ δ ρ) (stmt : ℕ) (d : δ) :
    Except Fault (World σ δ ρ × Bool) :=
  if w.con.state = .invalid then pure (w, false)
  else do
    let (w, released) ← releaseResults D w
    if released then
      let w := (w.setStatement (some stmt)).record (.execute stmt)
      pure (w.answered (D.execute w.drv d w.con.rs.toRsData))
    else pure (w, false)

def dbStmtNextResult (D : Driver σ δ ρ) (w : World σ δ ρ) (stmt : ℕ) (d : δ) :
    Except Fault (World σ δ ρ × Bool) :=
  if w.con.state = .invalid then pure (w, false)
  else do
    let (w, released) ← releaseResults D w
    if released then
      let w := w.setStatement (some stmt)
      match D.stmtNextResult with
      | none => pure (w.setError .none, false)
      | some op =>
        let w := w.record (.stmtNextResult stmt)
        pure (w.answered (op w.drv d w.con.rs.toRsData))
    else pure (w, false)

/-- `db_query`, with the memory the query starts at and the length passed with it. -/
def dbQuery (D : Driver σ δ ρ) (w : World σ δ ρ) (text : Bytes) (len : ℕ) :
    Except Fault (World σ δ ρ × Bool) :=
  if w.con.state = .invalid then pure (w.setError .fatal, false)
  else do
    let (w, released) ← releaseResults D w
    if released then
      let w := w.record (.query text len)
      pure (w.answered (D.query w.drv text len w.con.rs.toRsData))
    else pure (w.setError .fatal, false)

def dbNextResult (D : Driver σ δ ρ) (w : World σ δ ρ) : Except Fault (World σ δ ρ × Bool) :=
  if w.con.state = .invalid then pure (w.setError .fatal, false)
  else do
    let (w, released) ← releaseResults D w
    if released then
      match D.nextResult with
      | none => pure (w.setError .none, false)
      | some op =>
        let w := w.record .nextResult
        pure (w.answered (op w.drv w.con.rs.toRsData))
    else pure (w.setError .fatal, false)

def dbMoreResults (D : Driver σ δ ρ) (w : World σ δ ρ) : World σ δ ρ × Bool :=
  match w.con.state, D.moreResults with
  | .resultSet, some op =>
    let (drv, more) := op w.drv
    ({ w.record .moreResults with drv := drv }, more)
  | _, _ => (w, false)

/-- `db_fetch_row`.  A missing operation is logged but then called all the same. -/
def dbFetchRow (D : Driver σ δ ρ) (w : World σ δ ρ) :
    Except Fault (World σ δ ρ × Option (List (Option Bytes))) :=
  if w.con.state ≠ .resultSet then pure (w, none)
  else if w.con.rs.nrows = 0 ∨ w.con.rs.nfields = 0 then pure (w, none)
  else
    let size := w.con.rs.rowValues.getD w.con.rs.nfields
    let w := { w with con.rs.rowValues := some size }
    match D.fetchRow with
    | none => .error .nullOp
    | some op =>
      match op w.drv w.con.rs.toRsData with
      | none => .error .driver
      | some (drv, rc, values) =>
        let w := { w.record .fetchRow with drv := drv }
        if rc ≠ 0 then pure (w, none)
        else if size < values.length then .error .outOfBounds
        else pure (w, some values)

/-! ### Prepared statements -/

/-- `db_prepare`: the number of the new statement, or none for NULL. -/
def dbPrepare (D : Driver σ δ ρ) (w : World σ δ ρ) (query : Bytes) : World σ δ ρ × Option ℕ :=
  if w.con.state = .invalid then (w, none)
  else
    let (drv, rc, d) := D.prepare w.drv query
    let w := { w.record .prepare with drv := drv }
    if rc ≠ 0 then (w.setError .fatal, none)
    else
      ({ w with
        stmts := fun s => if s = w.nextStmt then some d else w.stmts s
        nextStmt := w.nextStmt + 1 }, some w.nextStmt)

def dbBindParam (D : Driver σ δ ρ) (w : World σ δ ρ) (stmt : ℕ) (d : δ) (len : ℕ) :
    World σ δ ρ × ℤ :=
  if w.con.state = .invalid then (w, 1)
  else
    let (drv, rc, d) := D.bindParam w.drv d len
    ({ w.record (.bindParam stmt) with
      drv := drv, stmts := fun s => if s = stmt then some d else w.stmts s }, rc)

def dbBindResult (D : Driver σ δ ρ) (w : World σ δ ρ) (stmt : ℕ) (d : δ) (len : ℕ) :
    World σ δ ρ × ℤ :=
  if w.con.state = .invalid then (w, 1)
  else
    let (drv, rc) := D.bindResult w.drv d len
    ({ w.record (.bindResult stmt) with drv := drv }, rc)

/-- `db_close`.  Its second look at the connection's state, after the guard has left it
ready, never finds anything to do. -/
def dbClose (D : Driver σ δ ρ) (w : World σ δ ρ) (stmt : ℕ) (d : δ) :
    Except Fault (World σ δ ρ × ℤ) :=
  if w.con.state = .invalid then pure (w, 0)
  else do
    let (w, released) ← releaseResults D w
    if released then
      if w.con.state = .invalid then pure (w, 0)
      else if w.con.state = .resultSet ∧ w.con.rs.statement = some stmt then do
        let (w, rc) ← dbFreeResultsInt D w
        if rc ≠ 0 then pure (w, 0) else pure (closeStmt w)
      else pure (closeStmt w)
    else pure (w, DbError.fatal.code)
where
  closeStmt (w : World σ δ ρ) : World σ δ ρ × ℤ :=
    let (drv, rc) := D.close w.drv d
    ({ w.record (.close stmt) with
      drv := drv, stmts := fun s => if s = stmt then none else w.stmts s }, rc)

/-! ### Opening and closing the connection -/

def dbConnectionClose (D : Driver σ δ ρ) (w : World σ δ ρ) : Except Fault (World σ δ ρ × ℤ) :=
  if w.con.state = .invalid then pure (w, 0)
  else do
    let (w, _) ← releaseResults D w
    let (drv, rc) := D.disconnect w.drv
    pure ({ w.record .disconnect with drv := drv, con.state := .invalid }, rc)

def dbConnectionReconnect (D : Driver σ δ ρ) (w : World σ δ ρ) : Except Fault (World σ δ ρ × ℤ) :=
  match D.reconnect with
  | none => pure (w, 0)
  | some op =>
    if w.con.state = .invalid then pure (w, 0)
    else do
      let (w, _) ← releaseResults D w
      let (drv, rc) := op w.drv
      let w := { w.record .reconnect with drv := drv }
      if rc = DbError.fatal.code then pure ((w.setState .invalid).sbCounterInc .error, rc)
      else pure ((w.setState .ready).sbCounterInc .reconnect, DbError.none.code)

def dbConnectionFree (D : Driver σ δ ρ) (w : World σ δ ρ) : Except Fault (World σ δ ρ) :=
  if w.con.state = .invalid then pure { w with freed := true }
  else do
    let (w, _) ← dbConnectionClose D w
    pure { w with freed := true }

end Sysbench
