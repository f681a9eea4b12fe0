/-
The MySQL driver of `drv_mysql.c` as a driver of the database layer.

The client library and the server behind it are not modelled: `server` answers the
calls of the library one after the other, with whatever each of them can report.
What matters about the library is kept as `events`: the results it hands out, the
results given back to it, and the opening and closing of connection and statements.

Result sets of text queries are `MYSQL_RES` and belong to the driver; those of
server-side prepared statements belong to the `MYSQL_STMT`, and `rs->ptr` is not set
for them.  An emulated statement is executed as a text query; the text does not
matter here, as the server may answer anything to it.
-/
import Sysbench.Model.DbCalls

namespace Sysbench

/-- A value of `--mysql-ignore-errors`: what `atoi` makes of it, and whether it is `all`. -/
structure IgnoredError where
  code : ℕ
  all : Bool

/-- The driver's `args` and `use_ps`. -/
structure MysqlArgs where
  dryRun : Bool
  usePs : Bool
  ignoredErrors : List IgnoredError

/-- What `mysql_next_result` and `mysql_stmt_next_result` return: -1, 0 or an error. -/
inductive NextAnswer where
  | finished
  | available
  | failed

/-- Everything a call of the client library can report; each call looks at its part. -/
structure Answer where
  failed : Bool
  errno : ℕ
  /-- did `mysql_store_result` or `mysql_stmt_init` return NULL? -/
  null : Bool
  fieldCount : ℕ
  numRows : ℕ
  affectedRows : ℕ
  paramCount : ℕ
  next : NextAnswer
  more : Bool
  /-- the row and its lengths, or NULL -/
  row : Option (ℕ → Option Bytes)
  rc : ℤ

/-- Success, and no result set. -/
def Answer.empty : Answer where
  failed := false
  errno := 0
  null := true
  fieldCount := 0
  numRows := 0
  affectedRows := 0
  paramCount := 0
  next := .finished
  more := false
  row := none
  rc := 0

/-- A call of the client library that hands out or takes back a result or a handle. -/
inductive MysqlEvent where
  | realConnect
  | close
  | stmtInit (stmt : ℕ)
  | stmtClose (stmt : ℕ)
  /-- `mysql_store_result` returned a result -/
  | storeResult (res : ℕ)
  | freeResult (res : ℕ)
  /-- `mysql_stmt_store_result` succeeded, with that many columns -/
  | stmtStoreResult (stmt fieldCount : ℕ)
  | stmtFreeResult (stmt : Option ℕ)

/-- The connection of the driver, and the client library's side of it. -/
structure MysqlState where
  server : ℕ → Answer
  clock : ℕ
  /-- the next `MYSQL_RES` or `MYSQL_STMT` -/
  nextHandle : ℕ
  events : List MysqlEvent

/-- The driver's fields of `db_stmt_t`. -/
structure MysqlStmt where
  ptr : Option ℕ
  emulated : Bool

namespace MysqlState

/-- The answer to the call of the client library made now. -/
def answer (m : MysqlState) : Answer := m.server m.clock

/-- Before the connection is made. -/
def init (server : ℕ → Answer) : MysqlState where
  server := server
  clock := 0
  nextHandle := 0
  events := []

def tick (m : MysqlState) : MysqlState := { m with clock := m.clock + 1 }

def log (m : MysqlState) (e : MysqlEvent) : MysqlState := { m with events := m.events ++ [e] }

end MysqlState

/-- `CR_SERVER_GONE_ERROR`, `CR_TCP_CONNECTION`, `CR_SERVER_LOST`, `CR_SERVER_LOST_EXTENDED`. -/
def reconnectErrors : List ℕ := [2006, 2011, 2013, 2055]

def erUnsupportedPs : ℕ := 1295

/-- `mysql_drv_reconnect`.  Its loop ends in one of two ways: connected again, or given
up because an error was raised elsewhere. -/
def mysqlDrvReconnect (m : MysqlState) : MysqlState × DbError :=
  let m := m.log .close
  if m.answer.failed then (m.tick, .fatal) else (m.tick.log .realConnect, .ignorable)

/-- `check_error`, for the error number of the call that failed. -/
def checkError (args : MysqlArgs) (m : MysqlState) (errno : ℕ) (rs : RsData ℕ) :
    MysqlState × DbError × RsData ℕ :=
  if args.ignoredErrors.any fun v => errno == v.code || v.all then
    if errno ∈ reconnectErrors then
      let (m, rc) := mysqlDrvReconnect m
      (m, rc, { rs with counter := .reconnect })
    else (m, .ignorable, { rs with counter := .error })
  else (m, .fatal, { rs with counter := .error })

/-- The end of `mysql_drv_query` and of `mysql_drv_next_result`: store the result and
get the query type. -/
def mysqlStoreResult (args : MysqlArgs) (m : MysqlState) (rs : RsData ℕ) :
    MysqlState × DbError × RsData ℕ :=
  let a := m.answer
  let m := m.tick
  if a.null then
    if a.errno = 0 ∧ a.fieldCount = 0 then
      let nrows := a.affectedRows % 2 ^ 32
      if nrows > 0 then (m, .none, { rs with counter := .write, nrows := nrows })
      else (m, .none, { rs with counter := .other })
    else checkError args m a.errno rs
  else
    ({ m with nextHandle := m.nextHandle + 1 }.log (.storeResult m.nextHandle), .none,
      { counter := .read, ptr := some m.nextHandle,
        nrows := a.numRows % 2 ^ 32, nfields := a.fieldCount % 2 ^ 32 })

def mysqlDrvQuery (args : MysqlArgs) (m : MysqlState) (rs : RsData ℕ) :
    MysqlState × DbError × RsData ℕ :=
  if args.dryRun then (m, .none, rs)
  else if m.answer.failed then checkError args m.tick m.answer.errno rs
  else mysqlStoreResult args m.tick rs

def mysqlDrvNextResult (args : MysqlArgs) (m : MysqlState) (rs : RsData ℕ) :
    MysqlState × DbError × RsData ℕ :=
  if args.dryRun then (m, .none, rs)
  else
    match m.answer.next with
    | .failed => checkError args m.tick m.answer.errno rs
    | .finished => (m.tick, .none, { rs with counter := .other })
    | .available => mysqlStoreResult args m.tick rs

/-- The end of `mysql_drv_execute` and of `mysql_drv_stmt_next_result` for a server-side
statement: store its result and get the query type. -/
def mysqlStmtStoreResult (args : MysqlArgs) (m : MysqlState) (stmt : ℕ) (rs : RsData ℕ) :
    MysqlState × DbError × RsData ℕ :=
  let a := m.answer
  let m := m.tick
  if a.failed then checkError args m a.errno rs
  else
    let m := m.log (.stmtStoreResult stmt a.fieldCount)
    if a.errno = 0 ∧ a.fieldCount = 0 then
      let nrows := a.affectedRows % 2 ^ 32
      (m, .none, { rs with nrows := nrows, counter := if nrows > 0 then .write else .other })
    else
      (m, .none, { rs with
        counter := .read, nrows := a.numRows % 2 ^ 32, nfields := a.fieldCount % 2 ^ 32 })

def mysqlDrvExecute (args : MysqlArgs) (m : MysqlState) (stmt : MysqlStmt) (rs : RsData ℕ) :
    MysqlState × DbError × RsData ℕ :=
  if args.dryRun then (m, .none, rs)
  else if stmt.emulated then mysqlDrvQuery args m rs
  else
    match stmt.ptr with
    | none => (m, .fatal, rs)
    | some h =>
      if m.answer.failed then checkError args m.tick m.answer.errno rs
      else mysqlStmtStoreResult args m.tick h rs

def mysqlDrvStmtNextResult (args : MysqlArgs) (m : MysqlState) (stmt : MysqlStmt) (rs : RsData ℕ) :
    MysqlState × DbError × RsData ℕ :=
  if args.dryRun then (m, .none, rs)
  else if stmt.emulated then mysqlDrvNextResult args m rs
  else
    match stmt.ptr with
    | none => (m, .fatal, rs)
    | some h =>
      match m.answer.next with
      | .failed => checkError args m.tick m.answer.errno rs
      | .finished => (m.tick, .none, { rs with counter := .other })
      | .available => mysqlStmtStoreResult args m.tick h rs

/-- `mysql_drv_fetch_row`.  The client library follows `rs->ptr` without a check. -/
def mysqlDrvFetchRow (args : MysqlArgs) (m : MysqlState) (rs : RsData ℕ) :
    Option (MysqlState × ℤ × List (Option Bytes)) :=
  if args.dryRun then some (m, DbError.none.code, [])
  else
    match rs.ptr with
    | none => none
    | some _ =>
      match m.answer.row with
      | none => some (m.tick, DbError.ignorable.code, [])
      | some row => some (m.tick, DbError.none.code, (List.range rs.nfields).map row)

def mysqlDrvMoreResults (args : MysqlArgs) (m : MysqlState) : MysqlState × Bool :=
  if args.dryRun then (m, false) else (m.tick, m.answer.more)

/-- The second half of `mysql_drv_free_results`. -/
def mysqlFreeResult (m : MysqlState) (rs : RsData ℕ) : MysqlState × ℤ × RsData ℕ :=
  match rs.ptr with
  | none => (m, 0, rs)
  | some res => (m.log (.freeResult res), 0, { rs with ptr := none })

def mysqlDrvFreeResults (args : MysqlArgs) (m : MysqlState) (stmt : StmtRef MysqlStmt)
    (rs : RsData ℕ) : Option (MysqlState × ℤ × RsData ℕ) :=
  if args.dryRun then some (m, 0, rs)
  else
    match stmt with
    | .dangling => none
    | .null => some (mysqlFreeResult m rs)
    | .live s =>
      if s.emulated then some (mysqlFreeResult m rs)
      else some (mysqlFreeResult (m.log (.stmtFreeResult s.ptr)) { rs with ptr := none })

def mysqlDrvPrepare (args : MysqlArgs) (m : MysqlState) : MysqlState × ℤ × MysqlStmt :=
  if args.dryRun then (m, 0, { ptr := none, emulated := false })
  else if args.usePs then
    if m.answer.null then (m.tick, 1, { ptr := none, emulated := false })
    else
      let h := m.nextHandle
      let m := { m.tick with nextHandle := h + 1 }.log (.stmtInit h)
      if m.answer.failed then
        if m.answer.errno = erUnsupportedPs then (m.tick, 0, { ptr := some h, emulated := true })
        else (m.tick.log (.stmtClose h), 1, { ptr := some h, emulated := false })
      else (m.tick, 0, { ptr := some h, emulated := false })
  else (m, 0, { ptr := none, emulated := true })

/-- `mysql_drv_bind_param`, up to the values bound. -/
def mysqlDrvBindParam (args : MysqlArgs) (m : MysqlState) (stmt : MysqlStmt) (len : ℕ) :
    MysqlState × ℤ × MysqlStmt :=
  if args.dryRun then (m, 0, stmt)
  else if stmt.emulated then (m, 0, stmt)
  else
    match stmt.ptr with
    | none => (m, 1, stmt)
    | some _ =>
      if m.answer.paramCount ≠ len then (m, 1, stmt)
      else if m.answer.failed then (m.tick, 1, stmt) else (m.tick, 0, stmt)

/-- `mysql_drv_bind_result`, up to the buffers bound. -/
def mysqlDrvBindResult (args : MysqlArgs) (m : MysqlState) (stmt : MysqlStmt) :
    MysqlState × ℤ :=
  if args.dryRun then (m, 0)
  else
    match stmt.ptr with
    | none => (m, 1)
    | some _ => if m.answer.failed then (m.tick, 1) else (m.tick, 0)

def mysqlDrvClose (args : MysqlArgs) (m : MysqlState) (stmt : MysqlStmt) : MysqlState × ℤ :=
  if args.dryRun then (m, 0)
  else
    match stmt.ptr with
    | none => (m, 1)
    | some h => (m.tick.log (.stmtClose h), m.answer.rc)

def mysqlDrvConnect (args : MysqlArgs) (m : MysqlState) : MysqlState × ℤ :=
  if args.dryRun then (m, 0)
  else if m.answer.failed then (m.tick, 1) else (m.tick.log .realConnect, 0)

def mysqlDrvDisconnect (args : MysqlArgs) (m : MysqlState) : MysqlState × ℤ :=
  if args.dryRun then (m, 0) else (m.log .close, 0)

/-- `mysql_driver.ops`. -/
def mysqlDriver (args : MysqlArgs) : Driver MysqlState MysqlStmt ℕ where
  describe := some fun _ => (0, { needsCommit := false })
  connect := mysqlDrvConnect args
  disconnect := mysqlDrvDisconnect args
  reconnect := some fun m => ((mysqlDrvReconnect m).1, (mysqlDrvReconnect m).2.code)
  prepare := fun m _ => mysqlDrvPrepare args m
  bindParam := mysqlDrvBindParam args
  bindResult := fun m stmt _ => mysqlDrvBindResult args m stmt
  execute := mysqlDrvExecute args
  stmtNextResult := some (mysqlDrvStmtNextResult args)
  fetchRow := some (mysqlDrvFetchRow args)
  query := fun m _ _ rs => mysqlDrvQuery args m rs
  moreResults := some (mysqlDrvMoreResults args)
  nextResult := some (mysqlDrvNextResult args)
  freeResults := mysqlDrvFreeResults args
  close := mysqlDrvClose args

end Sysbench
