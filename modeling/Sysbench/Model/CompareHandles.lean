/-
The compare driver as the client library sees it: which handles it obtains, uses and gives
back.

These are the functions of `drv_compare.c` once more, without the results and their
comparison.  A connection of the driver stands for a list of `MYSQL` handles, one for each
host, and a statement for a list of `MYSQL_STMT` handles.  `mysql_init`, `mysql_stmt_init`,
`mysql_store_result` and `mysql_stmt_result_metadata` hand out handles; `mysql_close`,
`mysql_stmt_close` and `mysql_free_result` take them back, `mysql_close` also the memory of
the handle, which `mysql_init(NULL)` has allocated.  Every other function uses the handle it
is given; several in a row count as one use.  The `mysql_multi_stmt_t` of a statement is the
driver's own, and no handle.

What the library reports is an argument of the call, for each connection by its index.
-/
import Sysbench.Lib.Ledger
import Sysbench.Model.CompareDriver

namespace Sysbench.Compare

/-- The handles of the client library. -/
inductive MysqlHandle where
  | mysql
  | mysqlStmt
  | mysqlRes
  deriving DecidableEq

/-- `db_stmt_t` -/
structure HandleStmt where
  query : Bytes
  emulated : Bool
  /-- `ptr`, a `mysql_multi_stmt_t`: the statement of each connection -/
  ptr : Option (List (Option ℕ))

/-- `db_conn_t`, its statements, and the client library. -/
structure HandleState where
  /-- `ptr`, a `db_mysql_multi_conn_t`: the handle of each connection -/
  conn : Option (List ℕ)
  /-- `mysql_errno` of each connection -/
  errnos : ℕ → ℕ
  stmts : List HandleStmt
  ledger : Ledger MysqlHandle

namespace HandleState

/-- Before `mysql_drv_connect`. -/
def init : HandleState where
  conn := none
  errnos := fun _ => 0
  stmts := []
  ledger := Ledger.empty

def obtain (s : HandleState) (kind : MysqlHandle) : HandleState :=
  { s with ledger := s.ledger.obtain kind }

def release (s : HandleState) (kind : MysqlHandle) (number : ℕ) : HandleState :=
  { s with ledger := s.ledger.release kind (some (kind, number)) }

def use (s : HandleState) (kind : MysqlHandle) (number : ℕ) : HandleState :=
  { s with ledger := s.ledger.use kind (some (kind, number)) }

def setErrno (s : HandleState) (i errno : ℕ) : HandleState :=
  { s with errnos := Function.update s.errnos i errno }

end HandleState

/-! ### Connecting -/

/-- What connecting to one host comes to. -/
inductive ConnectAnswer where
  /-- `mysql_init` returns NULL -/
  | initFailed
  /-- `mysql_real_connect` fails -/
  | connectFailed
  | connected
  deriving DecidableEq

/-- The loop of `mysql_drv_connect` over the hosts: the handles, or none where it returns 1. -/
def connectLoop : List ConnectAnswer → HandleState → List ℕ → HandleState × Option (List ℕ)
  | [], s, handles => (s, some handles)
  | answer :: hosts, s, handles =>
    let con := s.ledger.next
    match answer with
    | .initFailed => (s, none)
    | .connectFailed => ((s.obtain .mysql).use .mysql con, none)
    | .connected => connectLoop hosts ((s.obtain .mysql).use .mysql con) (handles ++ [con])

/-- `mysql_drv_connect` -/
def connectHandles (args : MysqlArgs) (s : HandleState) (hosts : List ConnectAnswer) :
    HandleState × ℤ :=
  if args.dryRun then (s, 0)
  else
    match connectLoop hosts s [] with
    | (s, none) => (s, 1)
    | (s, some handles) => ({ s with conn := some handles }, 0)

/-- `mysql_drv_disconnect` -/
def disconnectHandles (s : HandleState) : HandleState × ℤ :=
  match s.conn with
  | none => (s, 0)
  | some handles =>
    ({ handles.foldl (fun s con => s.release .mysql con) s with conn := none }, 0)

/-- How the attempts to make one connection again end. -/
structure ReconnectAnswer where
  /-- the attempts before the last -/
  failures : ℕ
  /-- `sb_globals.error` is set, and the last has failed as well -/
  gaveUp : Bool

/-- Use a handle that many times. -/
def useTimes (kind : MysqlHandle) (number : ℕ) : ℕ → HandleState → HandleState
  | 0, s => s
  | k + 1, s => useTimes kind number k (s.use kind number)

/-- The loop of `mysql_drv_reconnect` from connection `i` on. -/
def reconnectLoop (answers : ℕ → ReconnectAnswer) :
    ℕ → List ℕ → HandleState → HandleState × DbError
  | _, [], s => (s, .ignorable)
  | i, con :: handles, s =>
    let s := useTimes .mysql con ((answers i).failures + 1) (s.release .mysql con)
    if (answers i).gaveUp then (s, .fatal) else reconnectLoop answers (i + 1) handles s

/-- `mysql_drv_reconnect` -/
def reconnectHandles (answers : ℕ → ReconnectAnswer) (s : HandleState) : HandleState × DbError :=
  match s.conn with
  | none => (s, .fatal)
  | some [] => (s, .fatal)
  | some (con :: handles) => reconnectLoop answers 0 (con :: handles) s

/-- `check_error` -/
def checkErrorHandles (args : MysqlArgs) (answers : ℕ → ReconnectAnswer) (s : HandleState) :
    HandleState × DbError :=
  match s.conn with
  | none => (s, .fatal)
  | some [] => (s, .fatal)
  | some (con :: _) =>
    let error := s.errnos 0
    let s := s.use .mysql con
    if args.ignoredErrors.any fun v => error == v.code || v.all then
      if error ∈ reconnectErrors then reconnectHandles answers s else (s, .ignorable)
    else (s, .fatal)

/-! ### Text queries -/

/-- The loop of `mysql_drv_query` from connection `i` on. -/
def queryHandlesLoop (args : MysqlArgs) (reconnects : ℕ → ReconnectAnswer)
    (answers : ℕ → QueryAnswer) : ℕ → List ℕ → HandleState → HandleState × DbError
  | _, [], s => (s, .none)
  | i, con :: handles, s =>
    let s := s.use .mysql con
    match answers i with
    | .refused errno => checkErrorHandles args reconnects (s.setErrno i errno)
    | .noResult _ => queryHandlesLoop args reconnects answers (i + 1) handles (s.setErrno i 0)
    | .storeFailed errno => checkErrorHandles args reconnects (s.setErrno i errno)
    | .result _ =>
      let res := s.ledger.next
      queryHandlesLoop args reconnects answers (i + 1) handles
        (((s.setErrno i 0).obtain .mysqlRes).use .mysqlRes res)

/-- `mysql_drv_query`, which follows the pointer to the connections without a check -/
def queryHandles (args : MysqlArgs) (reconnects : ℕ → ReconnectAnswer)
    (answers : ℕ → QueryAnswer) (s : HandleState) : Except Stop (HandleState × DbError) :=
  if args.dryRun then .ok (s, .none)
  else
    match s.conn with
    | none => .error .badPointer
    | some handles => .ok (queryHandlesLoop args reconnects answers 0 handles s)

/-! ### Prepared statements -/

/-- What one connection answers when a statement is prepared. -/
inductive StmtAnswer where
  /-- `mysql_stmt_init` returns NULL -/
  | initFailed
  | prepared
  /-- `ER_UNSUPPORTED_PS` -/
  | unsupported
  | prepareFailed
  deriving DecidableEq

/-- `mysql_multi_stmt_free`, for the statements there are -/
def multiStmtFree (s : HandleState) (statements : List (Option ℕ)) : HandleState :=
  (statements.filterMap id).foldl (fun s stmt => s.release .mysqlStmt stmt) s

/-- The loop of `mysql_drv_prepare` from connection `i` on: the statements and whether they are
to be emulated, or none where it returns 1. -/
def prepareLoop (usePs : Bool) (answers : ℕ → StmtAnswer) :
    ℕ → List ℕ → HandleState → List (Option ℕ) → Bool →
      HandleState × Option (List (Option ℕ) × Bool)
  | _, [], s, statements, emulated => (s, some (statements, emulated))
  | i, con :: handles, s, statements, emulated =>
    if usePs then
      let s := s.use .mysql con
      let stmt := s.ledger.next
      match answers i with
      | .initFailed => (multiStmtFree s statements, none)
      | .prepared =>
        prepareLoop usePs answers (i + 1) handles
          ((s.obtain .mysqlStmt).use .mysqlStmt stmt) (statements ++ [some stmt]) emulated
      | .unsupported =>
        prepareLoop usePs answers (i + 1) handles
          ((((s.obtain .mysqlStmt).use .mysqlStmt stmt).use .mysql con).release
            .mysqlStmt stmt) (statements ++ [none]) true
      | .prepareFailed =>
        (multiStmtFree ((((s.obtain .mysqlStmt).use .mysqlStmt stmt).use .mysql con).release
          .mysqlStmt stmt) statements, none)
    else prepareLoop usePs answers (i + 1) handles s (statements ++ [none]) true

/-- `mysql_drv_prepare`.  If it fails there is no statement. -/
def prepareHandles (args : MysqlArgs) (query : Bytes) (answers : ℕ → StmtAnswer)
    (s : HandleState) : HandleState × ℤ :=
  if args.dryRun then
    ({ s with stmts := s.stmts ++ [{ query := query, emulated := false, ptr := none }] }, 0)
  else
    match s.conn with
    | none => (s, 1)
    | some [] => (s, 1)
    | some (con :: handles) =>
      match prepareLoop args.usePs answers 0 (con :: handles) s [] false with
      | (s, none) => (s, 1)
      | (s, some (statements, emulated)) =>
        ({ s with stmts := s.stmts ++
            [{ query := query, emulated := emulated, ptr := some statements }] }, 0)

/-- The loop of `mysql_drv_execute` from connection `i` on.  A code where it returns; -1 where
there are no metadata. -/
def executeHandlesLoop (args : MysqlArgs) (reconnects : ℕ → ReconnectAnswer) (query : Bytes)
    (answers : ℕ → ExecAnswer) :
    ℕ → List (Option ℕ) → HandleState → Except Stop (HandleState × ℤ)
  | _, [], s => .ok (s, DbError.none.code)
  | i, none :: statements, s =>
    executeHandlesLoop args reconnects query answers (i + 1) statements s
  | i, some stmt :: statements, s => do
    let s := s.use .mysqlStmt stmt
    let bound ← bindResult (isDml query) (answers i)
    if bound then
      let res := s.ledger.next
      let s := if isDml query then s
        else (((s.obtain .mysqlRes).use .mysqlRes res).use .mysqlStmt stmt)
      match (answers i).executeError, (answers i).storeError with
      | some errno, _ =>
        let (s, rc) := checkErrorHandles args reconnects (s.setErrno i errno)
        .ok (s, rc.code)
      | none, some errno =>
        let (s, rc) := checkErrorHandles args reconnects (s.setErrno i errno)
        .ok (s, rc.code)
      | none, none =>
        executeHandlesLoop args reconnects query answers (i + 1) statements (s.setErrno i 0)
    else .ok (s, -1)

/-- `mysql_drv_execute`.  The results that `db_mysql_multi_result_free` looks at have neither a
statement nor a pointer. -/
def executeHandles (args : MysqlArgs) (reconnects : ℕ → ReconnectAnswer) (stmt : HandleStmt)
    (answers : ℕ → ExecAnswer) (s : HandleState) : Except Stop (HandleState × ℤ) :=
  if args.dryRun then .ok (s, DbError.none.code)
  else if stmt.emulated then .ok (s, DbError.fatal.code)
  else
    match stmt.ptr with
    | none => .error .badPointer
    | some statements => executeHandlesLoop args reconnects stmt.query answers 0 statements s

/-- `mysql_drv_free_results`, for a result whose `ptr` is NULL, as the driver leaves it.  What
`mysql_stmt_free_result` is given is the `mysql_multi_stmt_t`. -/
def freeResultsHandles (args : MysqlArgs) (statement : Option HandleStmt) (s : HandleState) :
    HandleState × ℤ :=
  if args.dryRun then (s, 0)
  else
    match statement with
    | none => (s, 0)
    | some stmt =>
      if stmt.emulated then (s, 0)
      else ({ s with ledger := s.ledger.use .mysqlStmt none }, 0)

/-- `mysql_drv_close` of statement number `k`.  What `mysql_stmt_close` is given is the
`mysql_multi_stmt_t`. -/
def closeHandles (args : MysqlArgs) (k : ℕ) (stmt : HandleStmt) (s : HandleState) :
    HandleState × ℤ :=
  if args.dryRun then (s, 0)
  else
    match stmt.ptr with
    | none => (s, 1)
    | some _ =>
      ({ s with
        stmts := s.stmts.set k { stmt with ptr := none }
        ledger := s.ledger.release .mysqlStmt none }, 0)

/-! ### Runs -/

/-- A call of a driver operation. -/
inductive DrvCall where
  | connect (hosts : List ConnectAnswer)
  | disconnect
  | reconnect (answers : ℕ → ReconnectAnswer)
  | query (reconnects : ℕ → ReconnectAnswer) (answers : ℕ → QueryAnswer)
  | prepare (query : Bytes) (answers : ℕ → StmtAnswer)
  | execute (stmt : ℕ) (reconnects : ℕ → ReconnectAnswer) (answers : ℕ → ExecAnswer)
  | freeResults (stmt : Option ℕ)
  | close (stmt : ℕ)

/-- One call; a statement that does not exist is a dangling pointer. -/
def handleStep (args : MysqlArgs) (s : HandleState) : DrvCall → Except Stop (HandleState × ℤ)
  | .connect hosts => .ok (connectHandles args s hosts)
  | .disconnect => .ok (disconnectHandles s)
  | .reconnect answers =>
    let (s, rc) := reconnectHandles answers s
    .ok (s, rc.code)
  | .query reconnects answers => do
    let (s, rc) ← queryHandles args reconnects answers s
    pure (s, rc.code)
  | .prepare query answers => .ok (prepareHandles args query answers s)
  | .execute k reconnects answers =>
    match s.stmts[k]? with
    | none => .error .badPointer
    | some stmt => executeHandles args reconnects stmt answers s
  | .freeResults none => .ok (freeResultsHandles args none s)
  | .freeResults (some k) =>
    match s.stmts[k]? with
    | none => .error .badPointer
    | some stmt => .ok (freeResultsHandles args (some stmt) s)
  | .close k =>
    match s.stmts[k]? with
    | none => .error .badPointer
    | some stmt => .ok (closeHandles args k stmt s)

end Sysbench.Compare
