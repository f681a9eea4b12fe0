/-
The PostgreSQL driver of `drv_pgsql.c` as a driver of the database layer.

The calls of libpq that hand out, read and clear a `PGresult` are in a ledger.  A result is told
apart from all others by its handle; `rs->ptr` is none, or a handle together with what libpq has to
say about that result.

As in the model of the MySQL driver, `server` answers the calls of the client library one after the
other.  What libpq answers is arbitrary, with every `ExecStatusType` for every call, also where a
call would not get it (`PGRES_TUPLES_OK` for `PQprepare`), and with or without the fields of an
error, which a result that libpq has made up itself does not have.  That libpq hands out no result
at all, which it does when it runs out of memory, is left out.  The values of parameters and the
texts of queries do not matter, as the server may answer anything to them.

The driver counts the rows it has fetched in `rs->row.ptr`, which nothing else reads or writes;
here this is a field of the driver's state.
-/
import Sysbench.Lib.Ledger
import Sysbench.Model.DbCalls

namespace Sysbench

/-- A `PGresult` with tuples.  `PQntuples` and `PQnfields` are `int`. -/
structure PgResult where
  nfields : ℕ
  rows : List (List (Option Bytes))
  width : ∀ row ∈ rows, row.length = nfields
  ntuples_lt : rows.length < 2 ^ 31
  nfields_lt : nfields < 2 ^ 31

/-- `pg_stmt_t`, up to the types and values of the parameters. -/
structure PgPrepared where
  nparams : ℕ
  prepared : Bool

/-- The driver's fields of `db_stmt_t`. -/
structure PgsqlStmt where
  emulated : Bool
  ptr : Option PgPrepared

/-- The bytes of `40P01`, `23505` and `40001`: a deadlock, a duplicate key, a serialization
failure. -/
def ignorableStates : List Bytes :=
  [[52, 48, 80, 48, 49], [50, 51, 53, 48, 53], [52, 48, 48, 48, 49]]

/-- A `uint32_t` as an `int`. -/
def toInt (n : ℕ) : ℤ := if n < 2 ^ 31 then n else n - 2 ^ 32

/-- What `PQgetisnull` and `PQgetvalue` say of a field: none for NULL. -/
def pqGetValue (res : Option PgResult) (row field : ℕ) : Option Bytes := do
  let res ← res
  let values ← res.rows[row]?
  let value ← values[field]?
  value

namespace PgResults

inductive ExecStatusType where
  | emptyQuery
  | commandOk
  | tuplesOk
  | copyOut
  | copyIn
  | badResponse
  | nonfatalError
  | fatalError
  | copyBoth
  | singleTuple
  | pipelineSync
  | pipelineAborted
  | tuplesChunk
  deriving DecidableEq

/-- Everything libpq can report about a result, or about a new connection. -/
structure Reply where
  connected : Bool
  status : ExecStatusType
  tuples : PgResult
  /-- what `strtoul` makes of `PQcmdTuples` -/
  cmdTuples : ℕ
  /-- the field `PG_DIAG_SQLSTATE`, if there is one -/
  sqlState : Option Bytes
  /-- whether there is a field `PG_DIAG_MESSAGE_PRIMARY` -/
  hasMessage : Bool

/-- What a result has been obtained for. -/
inductive Origin where
  /-- `PQexec` in `pgsql_drv_query` -/
  | query
  /-- `PQexecPrepared` in `pgsql_drv_execute` -/
  | execute
  /-- `PQexec` of a `ROLLBACK` in `pgsql_check_status` -/
  | rollback
  /-- `PQprepare` in `pgsql_drv_prepare` -/
  | prepare
  /-- `PQprepare` in `pgsql_drv_bind_param` -/
  | bindParam
  deriving DecidableEq

/-- `PGresult *` -/
structure Pgres where
  handle : Handle Unit
  reply : Reply

structure State where
  server : ℕ → Reply
  clock : ℕ
  /-- `rs->row.ptr`, the number of the next row -/
  rowPtr : ℕ
  ledger : Ledger Unit
  /-- for each result handed out, what for and what it is -/
  replies : List (Origin × Reply)
  /-- `strdup` was given a null pointer, which is the end of the process; nothing after it says
  anything about the program. -/
  crashed : Bool

namespace State

/-- Before the connection is made. -/
def init (server : ℕ → Reply) : State where
  server := server
  clock := 0
  rowPtr := 0
  ledger := .empty
  replies := []
  crashed := false

/-- The answer to the call of libpq made now. -/
def reply (m : State) : Reply := m.server m.clock

def tick (m : State) : State := { m with clock := m.clock + 1 }

/-- A call that hands out a result. -/
def obtain (m : State) (origin : Origin) : State × Pgres :=
  ({ m with
      clock := m.clock + 1
      ledger := m.ledger.obtain ()
      replies := m.replies ++ [(origin, m.reply)] },
    { handle := ((), m.ledger.next), reply := m.reply })

/-- A call that looks at a result, such as `PQresultStatus`. -/
def read (m : State) (ptr : Option Pgres) : State :=
  { m with ledger := m.ledger.use () (ptr.map Pgres.handle) }

def crash (m : State) : State := { m with crashed := true }

def pqClear (m : State) (ptr : Option Pgres) : State :=
  { m with ledger := m.ledger.release () (ptr.map Pgres.handle) }

end State

/-- `pgsql_check_status`.  After an error that can be ignored it sends a `ROLLBACK`. -/
def pgsqlCheckStatus (m : State) (pgres : Pgres) (rs : RsData Pgres) :
    State × DbError × RsData Pgres :=
  -- `PQresultStatus`
  let m := m.read (some pgres)
  match pgres.reply.status with
  | .tuplesOk =>
    -- `PQntuples` and `PQnfields`
    let m := (m.read (some pgres)).read (some pgres)
    (m, .none,
      { rs with
        nrows := pgres.reply.tuples.rows.length
        nfields := pgres.reply.tuples.nfields
        counter := .read })
  | .commandOk =>
    -- `PQcmdTuples`
    let m := m.read (some pgres)
    let nrows := pgres.reply.cmdTuples % 2 ^ 32
    (m.pqClear (some pgres), .none,
      { rs with nrows := nrows, counter := if nrows > 0 then .write else .other })
  | .fatalError =>
    let rs := { rs with nrows := 0, counter := .error }
    -- `PQresultErrorField`, whose answer `strdup` takes as it is, twice
    let m := m.read (some pgres)
    match pgres.reply.sqlState with
    | none => (m.crash, .fatal, rs)
    | some sqlState =>
      let m := m.read (some pgres)
      if !pgres.reply.hasMessage then (m.crash, .fatal, rs)
      else if ignorableStates.contains sqlState then
        let (m, tmp) := m.obtain .rollback
        let m := m.pqClear (some tmp)
        (m.pqClear (some pgres), .ignorable, rs)
      else (m.pqClear (some pgres), .fatal, rs)
  | _ => (m, .fatal, { rs with nrows := 0, counter := .error })

/-- Send something, look at the status and keep the result if there are rows to read. -/
def send (origin : Origin) (m : State) (rs : RsData Pgres) : State × DbError × RsData Pgres :=
  let (m, pgres) := m.obtain origin
  let (m, rc, rs) := pgsqlCheckStatus m pgres rs
  (m, rc, { rs with ptr := if rs.counter = .read then some pgres else none })

def pgsqlDrvQuery (m : State) (rs : RsData Pgres) : State × DbError × RsData Pgres :=
  send .query m rs

def pgsqlDrvExecute (m : State) (stmt : PgsqlStmt) (rs : RsData Pgres) :
    State × DbError × RsData Pgres :=
  if stmt.emulated then pgsqlDrvQuery m rs
  else
    match stmt.ptr with
    | none => (m, .fatal, rs)
    | some _ => send .execute m rs

/-- One round of the loop of `pgsql_drv_fetch_row`: `PQgetisnull`, and for a value that is not
NULL `PQgetlength` and `PQgetvalue`. -/
def readField (ptr : Option Pgres) (m : State) (value : Option Bytes) : State :=
  match value with
  | none => m.read ptr
  | some _ => ((m.read ptr).read ptr).read ptr

def pgsqlDrvFetchRow (m : State) (rs : RsData Pgres) :
    Option (State × ℤ × List (Option Bytes)) :=
  if toInt rs.nrows ≤ m.rowPtr then some (m, DbError.ignorable.code, [])
  else
    let values := (List.range rs.nfields).map fun i =>
      pqGetValue (rs.ptr.map fun pgres => pgres.reply.tuples) m.rowPtr i
    let m := values.foldl (readField rs.ptr) m
    some ({ m with rowPtr := m.rowPtr + 1 }, DbError.none.code, values)

def pgsqlDrvFreeResults (m : State) (rs : RsData Pgres) : State × ℤ × RsData Pgres :=
  match rs.ptr with
  | some pgres => ({ m.pqClear (some pgres) with rowPtr := 0 }, 0, { rs with ptr := none })
  | none => (m, 1, rs)

/-- `pgsql_drv_prepare`.  A statement with parameters is prepared when they are bound, since
their types have to be known.  The result of `PQprepare` is cleared whatever its status is. -/
def pgsqlDrvPrepare (usePs : Bool) (m : State) (query : Bytes) : State × ℤ × PgsqlStmt :=
  if usePs then
    -- The placeholders are question marks.
    let nparams := (CMemory.cstr query).count 63
    if nparams = 0 then
      let (m, pgres) := m.obtain .prepare
      let m := (m.read (some pgres)).pqClear (some pgres)
      if pgres.reply.status ≠ .commandOk then (m, 1, { emulated := false, ptr := none })
      else (m, 0, { emulated := false, ptr := some ⟨nparams, true⟩ })
    else (m, 0, { emulated := false, ptr := some ⟨nparams, false⟩ })
  else (m, 0, { emulated := true, ptr := none })

/-- `pgsql_drv_bind_param`, up to the values bound.  A statement that is not emulated has a
`pg_stmt_t` until it is closed.  Here an error returns before `PQclear`. -/
def pgsqlDrvBindParam (m : State) (stmt : PgsqlStmt) (len : ℕ) : State × ℤ × PgsqlStmt :=
  if stmt.emulated then (m, 0, stmt)
  else
    match stmt.ptr with
    | none => (m, 1, stmt)
    | some pgstmt =>
      if pgstmt.prepared then (m, 0, stmt)
      else if pgstmt.nparams ≠ len then (m, 1, stmt)
      else
        let (m, pgres) := m.obtain .bindParam
        let m := m.read (some pgres)
        if pgres.reply.status ≠ .commandOk then (m, 1, stmt)
        else
          (m.pqClear (some pgres), 0,
            { stmt with ptr := some { pgstmt with prepared := true } })

def pgsqlDrvClose (m : State) (stmt : PgsqlStmt) : State × ℤ :=
  match stmt.ptr with
  | none => (m, 1)
  | some _ => (m, 0)

def pgsqlDrvConnect (m : State) : State × ℤ :=
  if m.reply.connected then (m.tick, 0) else (m.tick, 1)

/-- `pgsql_drv_reconnect`.  Its loop ends in one of two ways: connected again, or given up
because an error was raised elsewhere. -/
def pgsqlDrvReconnect (m : State) : State × ℤ :=
  if m.reply.connected then (m.tick, DbError.ignorable.code) else (m.tick, DbError.fatal.code)

/-- `pgsql_driver.ops`. -/
def pgsqlDriver (usePs : Bool) : Driver State PgsqlStmt Pgres where
  describe := some fun m => (if m.reply.connected then 0 else 1, { needsCommit := false })
  connect := pgsqlDrvConnect
  disconnect := fun m => (m, 0)
  reconnect := some pgsqlDrvReconnect
  prepare := pgsqlDrvPrepare usePs
  bindParam := pgsqlDrvBindParam
  bindResult := fun m _ _ => (m, 0)
  execute := pgsqlDrvExecute
  stmtNextResult := none
  fetchRow := some pgsqlDrvFetchRow
  query := fun m _ _ rs => pgsqlDrvQuery m rs
  moreResults := none
  nextResult := none
  freeResults := fun m _ rs => some (pgsqlDrvFreeResults m rs)
  close := pgsqlDrvClose

end PgResults

end Sysbench
