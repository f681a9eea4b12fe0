/-
The compare driver of `drv_compare.c`: every statement goes to all instances, and what
they answer is rendered as text and compared with the text of the first.

There are `n + 1` instances.  What the client library reports for one of them is an
argument of the call, as is what the stack and the heap hold before they are written.
Each instance keeps the statements it executed and the error number of the last call
that failed there, which is what `check_error` looks at.

Not modelled are failing allocations, and the texts printed to standard output and to
`compare.txt` beyond the two results and the number of the instance.
-/
import Sysbench.Lib.Decimal
import Sysbench.Lib.Snprintf
import Sysbench.Model.MysqlDriver

namespace Sysbench.Compare

open Function CMemory Decimal

/-- How a call can fail to return. -/
inductive Stop where
  | outOfBounds
  /-- a pointer that is null or was never set is followed -/
  | badPointer
  | exit
  deriving DecidableEq

/-! ### The instances -/

structure Instance where
  /-- `mysql_errno` -/
  errno : ℕ
  /-- the statements executed, in order -/
  executed : List Bytes

/-- `db_mysql_multi_conn_t`, and the `sql_errno` of its `db_conn_t`. -/
structure Conn (n : ℕ) where
  instances : Fin (n + 1) → Instance
  sqlErrno : ℕ

namespace Conn

variable {n : ℕ}

/-- A call of the client library has failed on instance `i`. -/
def failed (c : Conn n) (i : Fin (n + 1)) (errno : ℕ) : Conn n :=
  { c with instances := update c.instances i { c.instances i with errno := errno } }

/-- The server behind instance `i` has executed a statement. -/
def ran (c : Conn n) (i : Fin (n + 1)) (statement : Bytes) : Conn n :=
  let executed := (c.instances i).executed ++ [statement]
  { c with instances := update c.instances i { errno := 0, executed := executed } }

end Conn

/-- After `mysql_drv_connect`. -/
def Conn.init (n : ℕ) : Conn n where
  instances := fun _ => { errno := 0, executed := [] }
  sqlErrno := 0

/-- What `check_error` makes of an error number: its result and the counter it sets.  Whether all
connections can be made again, where that is asked for, is `reconnects`. -/
def verdict (args : MysqlArgs) (reconnects : Bool) (error : ℕ) : DbError × SbCounterType :=
  if args.ignoredErrors.any fun v => error == v.code || v.all then
    if error ∈ reconnectErrors then (if reconnects then .ignorable else .fatal, .reconnect)
    else (.ignorable, .error)
  else (.fatal, .error)

/-- The loop of `check_error` over the connections, for the `mysql_errno` of each.  None is a
connection whose handle is NULL.  It leaves an `sql_errno` and returns. -/
def checkErrorLoop (args : MysqlArgs) (reconnects : Bool) (sqlErrno : ℕ) :
    List (Option ℕ) → ℕ × DbError
  | [] => (sqlErrno, .none)
  | none :: connections => checkErrorLoop args reconnects sqlErrno connections
  | some error :: _ => (error, (verdict args reconnects error).1)

/-- `check_error`, up to the counter. -/
def checkErrors (args : MysqlArgs) (reconnects : Bool) (sqlErrno : ℕ)
    (connections : List (Option ℕ)) : ℕ × DbError :=
  if connections = [] then (sqlErrno, .fatal)
  else checkErrorLoop args reconnects sqlErrno connections

/-- `check_error`.  All handles are there, so that the loop over the connections returns in its
first round. -/
def checkError {n : ℕ} (args : MysqlArgs) (reconnects : Bool) (c : Conn n) :
    Conn n × DbError × SbCounterType :=
  let error := (c.instances 0).errno
  ({ c with sqlErrno := error }, verdict args reconnects error)

/-- Does the text begin with the word, in upper or lower case?  The word is lower case. -/
def beginsWith (word text : Bytes) : Bool :=
  (text.take word.length).map (fun b => if 65 ≤ b ∧ b ≤ 90 then b + 32 else b) == word

/-- `!strncasecmp(query, "SELECT", 6)`. -/
def isSelect (query : Bytes) : Bool := beginsWith [115, 101, 108, 101, 99, 116] query

/-- The statements `mysql_drv_execute` takes for changes: insert, update, delete, replace. -/
def isDml (query : Bytes) : Bool :=
  beginsWith [105, 110, 115, 101, 114, 116] query ||
  beginsWith [117, 112, 100, 97, 116, 101] query ||
  beginsWith [100, 101, 108, 101, 116, 101] query ||
  beginsWith [114, 101, 112, 108, 97, 99, 101] query

/-! ### Comparing -/

/-- A reported difference: the instance, and the two texts. -/
structure Mismatch (n : ℕ) where
  index : Fin (n + 1)
  result0 : Bytes
  result : Bytes

/-- The `strcmp` of the first text with that of each of the instances in the list. -/
def compareWith {n : ℕ} (first : Bytes) (texts : Fin (n + 1) → Option Bytes) :
    List (Fin (n + 1)) → Except Stop (List (Mismatch n))
  | [] => .ok []
  | j :: js =>
    match texts j with
    | none => .error .badPointer
    | some text =>
      match strcmp first text with
      | none => .error .outOfBounds
      | some same => do
        let rest ← compareWith first texts js
        pure (if same then rest
          else { index := j, result0 := cstr first, result := cstr text } :: rest)

/-- The end of `mysql_drv_query` and of `mysql_drv_execute`, for queries. -/
def compareTexts {n : ℕ} (select : Bool) (texts : Fin (n + 1) → Option Bytes) :
    Except Stop (List (Mismatch n)) :=
  if select then
    match texts 0 with
    | none => .error .badPointer
    | some first => compareWith first texts (List.finRange (n + 1)).tail
  else .ok []

/-- What a call returns: a `db_error_t`, the `db_result_t`, and what was reported. -/
structure Return (n : ℕ) where
  rc : ℤ
  rs : RsData Empty
  mismatches : List (Mismatch n)

/-! ### Text queries -/

/-- A result set of `mysql_store_result`: the names of its fields, which are C strings, and
its rows, whose cells are NULL or bytes. -/
structure StoredResult where
  fields : List Bytes
  rows : List (List (Option Bytes))
  names : ∀ name ∈ fields, (0 : UInt8) ∉ name
  width : ∀ row ∈ rows, row.length = fields.length
  deriving DecidableEq

/-- The text of `NULL`. -/
def nullText : Bytes := [78, 85, 76, 76]

/-- `row[j]`. -/
def cell (row : List (Option Bytes)) (j : ℕ) : Option Bytes := row.getD j none

/-- `mysql_fetch_lengths(res)[j]`; it is 0 for NULL. -/
def fetchLength (row : List (Option Bytes)) (j : ℕ) : ℕ := ((cell row j).getD []).length

/-- What `%.*s` takes of a cell: the length of NULL is 0, so nothing of the text for it. -/
def cellText (row : List (Option Bytes)) (j : ℕ) : Bytes :=
  cstr (((cell row j).getD nullText).take (fetchLength row j))

namespace StoredResult

/-- `fields[j].name`. -/
def name (t : StoredResult) (j : ℕ) : Bytes := t.fields.getD j []

/-- `fields[j].max_length`, the length of the longest cell. -/
def maxLength (t : StoredResult) (j : ℕ) : ℕ :=
  (t.rows.map fun row => fetchLength row j).max?.getD 0

/-- What `mysql_drv_query` prints for a result set, with the tests for room it makes. -/
def textScript (t : StoredResult) : List Cmd :=
  let columns := List.range t.fields.length
  columns.flatMap (fun j =>
    [.reserve (t.maxLength j + 10),
      .print ([124, 32] ++ List.rightpad (t.maxLength j + 2) 32 (t.name j))]) ++
  [.print [124, 10]] ++
  t.rows.flatMap fun row =>
    columns.flatMap (fun j =>
      [.reserve (fetchLength row j + 10),
        .print ([124, 32] ++ List.rightpad (t.maxLength j + 2) 32 (cellText row j) ++ [32])]) ++
    [.print [124, 10]]

end StoredResult

/-- The buffer `mysql_drv_query` allocates for a result set, filled. -/
def renderResult (heap : ℕ → UInt8) (t : StoredResult) : Except Stop Bytes :=
  match Cmd.run heap t.textScript { mem := (List.range 4096).map heap, pos := 0 } with
  | none => .error .outOfBounds
  | some o =>
    match writeAt o.mem o.pos [0] with
    | none => .error .outOfBounds
    | some mem => .ok mem

/-- What one instance answers to a text query. -/
inductive QueryAnswer where
  /-- `mysql_real_query` fails -/
  | refused (errno : ℕ)
  /-- there is no result set, and should be none -/
  | noResult (affectedRows : ℕ)
  /-- `mysql_store_result` fails -/
  | storeFailed (errno : ℕ)
  | result (t : StoredResult)

/-- The variables of `mysql_drv_query`. -/
structure QueryVars (n : ℕ) where
  conn : Conn n
  rs : RsData Empty
  buffers : Fin (n + 1) → Option Bytes

variable {n : ℕ}

/-- Fill `buffers[i]`, for a query. -/
def renderInto (heap : Fin (n + 1) → ℕ → UInt8) (select : Bool) (v : QueryVars n) (i : Fin (n + 1))
    (t : StoredResult) : Except Stop (QueryVars n) :=
  if select then do
    let text ← renderResult (heap i) t
    pure { v with buffers := update v.buffers i (some text) }
  else .ok v

/-- One round of the loop in `mysql_drv_query`; an error code where it returns. -/
def queryInstance (args : MysqlArgs) (heap : Fin (n + 1) → ℕ → UInt8) (reconnects : Bool)
    (query : Bytes) (len : ℕ) (v : QueryVars n) (i : Fin (n + 1)) :
    QueryAnswer → Except Stop (QueryVars n × Option DbError)
  | .refused errno =>
    let (conn, rc, counter) := checkError args reconnects (v.conn.failed i errno)
    .ok ({ v with conn := conn, rs.counter := counter }, some rc)
  | .noResult affectedRows =>
    let v := { v with conn := v.conn.ran i (query.take len) }
    let nrows := affectedRows % 2 ^ 32
    if i = 0 then
      if nrows > 0 then .ok ({ v with rs.counter := .write, rs.nrows := nrows }, none)
      else .ok ({ v with rs.counter := .other }, none)
    else .ok (v, none)
  | .storeFailed errno =>
    let (conn, rc, counter) :=
      checkError args reconnects ((v.conn.ran i (query.take len)).failed i errno)
    .ok ({ v with conn := conn, rs.counter := counter }, some rc)
  | .result t => do
    let v ← renderInto heap (isSelect query) { v with conn := v.conn.ran i (query.take len) } i t
    if i = 0 then
      pure ({ v with rs := { counter := .read, nrows := t.rows.length % 2 ^ 32,
                             nfields := t.fields.length % 2 ^ 32, ptr := none } }, none)
    else pure (v, none)

def queryLoop (args : MysqlArgs) (heap : Fin (n + 1) → ℕ → UInt8) (reconnects : Bool)
    (query : Bytes) (len : ℕ) (answers : Fin (n + 1) → QueryAnswer) :
    List (Fin (n + 1)) → QueryVars n → Except Stop (QueryVars n × Option DbError)
  | [], v => .ok (v, none)
  | i :: rest, v => do
    let (v, rc) ← queryInstance args heap reconnects query len v i (answers i)
    match rc with
    | some rc => pure (v, some rc)
    | none => queryLoop args heap reconnects query len answers rest v

def mysqlDrvQuery (args : MysqlArgs) (heap : Fin (n + 1) → ℕ → UInt8) (reconnects : Bool)
    (c : Conn n) (query : Bytes) (len : ℕ) (answers : Fin (n + 1) → QueryAnswer)
    (rs : RsData Empty) : Except Stop (Conn n × Return n) :=
  if args.dryRun then .ok (c, { rc := DbError.none.code, rs := rs, mismatches := [] })
  else do
    let (v, rc) ← queryLoop args heap reconnects query len answers (List.finRange (n + 1))
      { conn := { c with sqlErrno := 0 }, rs := rs, buffers := fun _ => none }
    match rc with
    | some rc => pure (v.conn, { rc := rc.code, rs := v.rs, mismatches := [] })
    | none => do
      let mismatches ← compareTexts (isSelect query) v.buffers
      pure (v.conn, { rc := DbError.none.code, rs := v.rs, mismatches := mismatches })

/-! ### Prepared statements -/

/-- `mysql_multi_stmt_t` with the fields of its `db_stmt_t`.  Unless the statement is to be
emulated, it was prepared on every instance, by `prepareLoop`. -/
structure MultiStmt (n : ℕ) where
  query : Bytes
  emulated : Bool
  /-- is the instance's `MYSQL_STMT` not NULL? -/
  statements : Fin (n + 1) → Bool
  prepared : emulated = false → ∀ i, statements i = true

/-- The field types the driver knows, and all others. -/
inductive FieldType where
  | long
  | string
  | other
  deriving DecidableEq

/-- A cell as `mysql_stmt_fetch` leaves it: for a 32-bit integer the bound buffer holds the
number, for a string its bytes; for other types there is no buffer. -/
inductive StmtCell where
  | null
  | long (value : UInt32)
  | string (bytes : Bytes)
  | other
  deriving DecidableEq

namespace StmtCell

/-- The bytes at `bind[i].buffer`, as many as `length[i]` says; numbers are little endian. -/
def buffer : StmtCell → Bytes
  | .null => []
  | .long value =>
    [value.toUInt8, (value >>> 8).toUInt8, (value >>> 16).toUInt8, (value >>> 24).toUInt8]
  | .string bytes => bytes
  | .other => []

/-- Can a cell of that type be this one? -/
def ofType : StmtCell → FieldType → Bool
  | .null, _ => true
  | .long _, .long => true
  | .string _, .string => true
  | .other, .other => true
  | _, _ => false

end StmtCell

/-- The metadata of a statement and the rows fetched for it. -/
structure StmtResult where
  fields : List (Bytes × FieldType)
  rows : List (List StmtCell)
  names : ∀ f ∈ fields, (0 : UInt8) ∉ f.1
  typed : ∀ row ∈ rows, List.Forall₂ (fun f (c : StmtCell) => c.ofType f.2 = true) fields row

/-- A cell with its name, as printed: `  name: NULL ` or `  name: value (length: 1) `. -/
def cellPiece (name : Bytes) (c : StmtCell) : Bytes :=
  [32, 32] ++ name ++ [58, 32] ++
    if c = .null then nullText ++ [32]
    else cstr c.buffer ++ [32, 40, 108, 101, 110, 103, 116, 104, 58, 32] ++
      decimal c.buffer.length ++ [41, 32]

/-- What `mysql_drv_execute` prints for a row: `rows 1:`, the cells, and a line feed. -/
def rowScript (names : List Bytes) (k : ℕ) (row : List StmtCell) : List Cmd :=
  [.print ([114, 111, 119, 115, 32] ++ decimal k ++ [58, 10])] ++
  (names.zip row).map (fun f => .print (cellPiece f.1 f.2)) ++ [.print [10]]

def StmtResult.stmtScript (t : StmtResult) : List Cmd :=
  (t.rows.zipIdx 1).flatMap fun row => rowScript (t.fields.map Prod.fst) row.2 row.1

def outputBufferSize : ℕ := 4096

/-- The fetching and printing of `mysql_drv_execute`, into an instance's `rs_buf`. -/
def renderRows (rsBuf : Bytes) (t : StmtResult) : Except Stop Bytes :=
  if t.rows.any fun row => row.contains .other then .error .badPointer
  else
    match Cmd.run (fun _ => 0) t.stmtScript { mem := rsBuf, pos := 0 } with
    | none => .error .outOfBounds
    | some o => .ok o.mem

/-- What the client library reports for a prepared statement on one instance; each call
looks at its part. -/
structure ExecAnswer where
  /-- none where `mysql_stmt_result_metadata` returns NULL -/
  result : Option StmtResult
  bindFailed : Bool
  /-- the error of `mysql_stmt_execute` -/
  executeError : Option ℕ
  /-- the error of `mysql_stmt_store_result` -/
  storeError : Option ℕ
  numRows : ℕ
  fieldCount : ℕ

/-- The variables of `mysql_drv_execute`. -/
structure ExecVars (n : ℕ) where
  conn : Conn n
  rs : RsData Empty
  rsBuf : Fin (n + 1) → Bytes

/-- The binding of results in front of `mysql_stmt_execute`, for a statement that is not
taken for a change: does the function go on? -/
def bindResult (dml : Bool) (a : ExecAnswer) : Except Stop Bool :=
  match dml, a.result with
  | true, _ => .ok true
  | false, none => .ok false
  | false, some t =>
    if 10 < t.fields.length then .error .outOfBounds
    else if a.bindFailed then .error .exit
    else .ok true

/-- One round of the loop in `mysql_drv_execute` behind the binding.  There is a connection
to look at, so `check_error` never answers `DB_ERROR_NONE` and each error returns. -/
def executeInstance (args : MysqlArgs) (reconnects : Bool) (query : Bytes) (v : ExecVars n)
    (i : Fin (n + 1)) (a : ExecAnswer) : Except Stop (ExecVars n × Option ℤ) :=
  match a.executeError with
  | some errno =>
    let (conn, rc, _) := checkError args reconnects (v.conn.failed i errno)
    .ok ({ v with conn := conn }, some rc.code)
  | none =>
    let v := { v with conn := v.conn.ran i query }
    match a.storeError with
    | some errno =>
      let (conn, rc, _) := checkError args reconnects (v.conn.failed i errno)
      .ok ({ v with conn := conn }, some rc.code)
    | none => do
      let v := if i = 0 then { v with rs.nrows := a.numRows % 2 ^ 32
                                      rs.nfields := a.fieldCount % 2 ^ 32
                                      rs.counter := .other } else v
      match isDml query, a.result with
      | false, some t => do
        let text ← renderRows (v.rsBuf i) t
        pure ({ v with rsBuf := update v.rsBuf i text }, none)
      | _, _ => pure (v, none)

/-- The loop of `mysql_drv_execute`.  A code where it returns; -1 where there are no
metadata. -/
def executeLoop (args : MysqlArgs) (reconnects : Bool) (stmt : MultiStmt n)
    (answers : Fin (n + 1) → ExecAnswer) :
    List (Fin (n + 1)) → ExecVars n → Except Stop (ExecVars n × Option ℤ)
  | [], v => .ok (v, none)
  | i :: rest, v =>
    if stmt.statements i then do
      let bound ← bindResult (isDml stmt.query) (answers i)
      if bound then do
        let (v, rc) ← executeInstance args reconnects stmt.query v i (answers i)
        match rc with
        | some rc => pure (v, some rc)
        | none => executeLoop args reconnects stmt answers rest v
      else pure (v, some (-1))
    else executeLoop args reconnects stmt answers rest v

def mysqlDrvExecute (args : MysqlArgs) (stack : Fin (n + 1) → ℕ → UInt8) (reconnects : Bool)
    (c : Conn n) (stmt : MultiStmt n) (answers : Fin (n + 1) → ExecAnswer)
    (rs : RsData Empty) : Except Stop (Conn n × Return n) :=
  if args.dryRun then .ok (c, { rc := DbError.none.code, rs := rs, mismatches := [] })
  else if stmt.emulated then .ok (c, { rc := DbError.fatal.code, rs := rs, mismatches := [] })
  else do
    let (v, rc) ← executeLoop args reconnects stmt answers (List.finRange (n + 1))
      { conn := c, rs := rs, rsBuf := fun i => (List.range outputBufferSize).map (stack i) }
    match rc with
    | some rc => pure (v.conn, { rc := rc, rs := v.rs, mismatches := [] })
    | none => do
      let mismatches ← compareTexts (!isDml stmt.query && isSelect stmt.query) fun i =>
        some (v.rsBuf i)
      pure (v.conn, { rc := DbError.none.code, rs := v.rs, mismatches := mismatches })

/-! ### Runs -/

/-- What a call finds besides its statement: the memory it has not written yet, whether
connections can be made again, and the `db_result_t` it is given. -/
structure Env (n : ℕ) where
  memory : Fin (n + 1) → ℕ → UInt8
  reconnects : Bool
  rs : RsData Empty

inductive Call (n : ℕ) where
  | query (env : Env n) (text : Bytes) (len : ℕ) (answers : Fin (n + 1) → QueryAnswer)
  | execute (env : Env n) (stmt : MultiStmt n) (answers : Fin (n + 1) → ExecAnswer)

def step (args : MysqlArgs) (c : Conn n) : Call n → Except Stop (Conn n × Return n)
  | .query env text len answers =>
    mysqlDrvQuery args env.memory env.reconnects c text len answers env.rs
  | .execute env stmt answers =>
    mysqlDrvExecute args env.memory env.reconnects c stmt answers env.rs

/-- Nothing in memory, and a result that is not set. -/
def Env.blank (n : ℕ) : Env n where
  memory := fun _ _ => 0
  reconnects := false
  rs := { counter := .other, nrows := 0, nfields := 0, ptr := none }

/-- Arguments without any ignored error. -/
def strictArgs : MysqlArgs := { dryRun := false, usePs := true, ignoredErrors := [] }

end Sysbench.Compare
