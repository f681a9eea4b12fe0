/-
Parameters of prepared statements, from Lua to the server.

`sql_param` of `sysbench.sql.lua` owns the buffer, the length and the NULL flag of a
parameter; `bind_param` hands pointers to them to the MySQL driver.  A server-side statement
gives these to the client library, which sends the first `data_len` bytes of a buffer.  An
emulated one prints each value into the text of the query; that loop is in `QueryBuffer`.  Both
read the buffers when the statement is executed, so `set` acts on statements bound before.

The two ways are kept side by side: a statement holds what each of them has bound, and
`execute` says what each of them has to send.  The number of placeholders that the server finds
in a query, and what LuaJIT makes of a number, are arguments.  Not modelled are dry runs, which
send nothing, and failing allocations; `set_rand_str` is in `StringParams`.
-/
import Sysbench.Lib.Snprintf
import Sysbench.Lib.SqlLiteral
import Sysbench.Model.DbLayer

namespace Sysbench.Bind

open CMemory SqlLiteral

/-! ### Bind structures -/

/-- `db_bind_type_t`, and `sysbench.sql.type` -/
inductive BindType where
  | none | tinyint | smallint | int | bigint | float | double
  | time | date | datetime | timestamp | char | varchar
  deriving DecidableEq

structure DbTime where
  year : UInt32
  month : UInt32
  day : UInt32
  hour : UInt32
  minute : UInt32
  second : UInt32

/-- A buffer, as its type tells to read it.  Floating-point numbers are their bits. -/
inductive BindBuffer where
  | none
  | tinyint (v : Int8)
  | smallint (v : Int16)
  | int (v : Int32)
  | bigint (v : Int64)
  | float (bits : UInt32)
  | double (bits : UInt64)
  | time (tm : DbTime)
  | date (tm : DbTime)
  | datetime (tm : DbTime)
  | timestamp (tm : DbTime)
  | char (mem : Bytes)
  | varchar (mem : Bytes)

def BindBuffer.type : BindBuffer → BindType
  | .none => .none
  | .tinyint _ => .tinyint
  | .smallint _ => .smallint
  | .int _ => .int
  | .bigint _ => .bigint
  | .float _ => .float
  | .double _ => .double
  | .time _ => .time
  | .date _ => .date
  | .datetime _ => .datetime
  | .timestamp _ => .timestamp
  | .char _ => .char
  | .varchar _ => .varchar

/-- `db_bind_t`; `isNull` is none for a null pointer. -/
structure DbBind where
  buffer : BindBuffer
  dataLen : ℕ
  maxLen : ℕ
  isNull : Option Bool

/-! ### Server-side statements -/

inductive MysqlType where
  | tiny | short | long | longlong | float | double | datetime | timestamp | string | varString

/-- `get_mysql_bind_type`; none for -1. -/
def getMysqlBindType : BindType → Option MysqlType
  | .tinyint => some .tiny
  | .smallint => some .short
  | .int => some .long
  | .bigint => some .longlong
  | .float => some .float
  | .double => some .double
  | .datetime => some .datetime
  | .timestamp => some .timestamp
  | .char => some .string
  | .varchar => some .varString
  | .none | .time | .date => none

structure MysqlBind where
  bufferType : Option MysqlType
  buffer : BindBuffer
  bufferLength : ℕ
  length : ℕ
  isNull : Option Bool

def convertToMysqlBind (bind : DbBind) : MysqlBind where
  bufferType := getMysqlBindType bind.buffer.type
  buffer := bind.buffer
  bufferLength := bind.maxLen
  length := bind.dataLen
  isNull := bind.isNull

/-- What the client library sends for a parameter, as far as it is NULL, an integer or a
string. -/
def MysqlBind.transmitted (bind : MysqlBind) : Option Value :=
  if bind.isNull = some true then some .null
  else
    match bind.bufferType, bind.buffer with
    | some .tiny, .tinyint v => some (.int v.toInt)
    | some .short, .smallint v => some (.int v.toInt)
    | some .long, .int v => some (.int v.toInt)
    | some .longlong, .bigint v => some (.int v.toInt)
    | some .string, .char mem => some (.bytes (mem.take bind.length))
    | some .varString, .varchar mem => some (.bytes (mem.take bind.length))
    | _, _ => none

/-! ### The Lua side -/

/-- A Lua value; a number is given as what it becomes in an `int64_t` and in a `double`. -/
inductive LuaValue where
  | nil
  | number (int64 : Int64) (double : UInt64)
  | string (bs : Bytes)

/-- `sql_param`: a character buffer has room for `max_len` bytes and holds `data_len` of them. -/
structure SqlParam extends DbBind where
  sized : ∀ mem, buffer = .varchar mem → mem.length = maxLen ∧ dataLen ≤ maxLen

/-- `self.max_len < len and self.max_len or len` -/
def copiedLen (maxLen len : ℕ) : ℕ := if maxLen < len then maxLen else len

theorem copiedLen_le (maxLen len : ℕ) :
    copiedLen maxLen len ≤ len ∧ copiedLen maxLen len ≤ maxLen := by
  unfold copiedLen
  split
  · omega
  · omega

/-- `ffi.copy(buffer, value, len)` -/
def copyInto (mem value : Bytes) (len : ℕ) : Bytes := value.take len ++ mem.drop len

theorem length_copyInto {mem value : Bytes} {len : ℕ} (hvalue : len ≤ value.length)
    (hmem : len ≤ mem.length) : (copyInto mem value len).length = mem.length := by
  rw [copyInto, List.length_append, List.length_take, List.length_drop]
  omega

/-- `sql_param.set`, and whether it raises no error.  The flag is cleared before the value is
looked at. -/
def SqlParam.set (p : SqlParam) (value : LuaValue) : SqlParam × Bool :=
  match value with
  | .nil => ({ p with isNull := some true }, true)
  | .number int64 double =>
    match p.buffer with
    | .bigint _ =>
      ({ p with isNull := some false, buffer := .bigint int64
                sized := nofun }, true)
    | .double _ =>
      ({ p with isNull := some false, buffer := .double double
                sized := nofun }, true)
    | _ => ({ p with isNull := some false }, false)
  | .string bs =>
    match hbuffer : p.buffer with
    | .varchar mem =>
      ({ p with
          isNull := some false
          buffer := .varchar (copyInto mem bs (copiedLen p.maxLen bs.length))
          dataLen := copiedLen p.maxLen bs.length
          sized := by
            intro mem' h
            cases h
            have hsize := (p.sized mem hbuffer).1
            obtain ⟨hbs, hmax⟩ := copiedLen_le p.maxLen bs.length
            exact ⟨(length_copyInto hbs (hsize ▸ hmax)).trans hsize, hmax⟩ }, true)
    | _ => ({ p with isNull := some false }, false)

/-- `bind_create`; none where it raises an error. -/
def bindCreate (btype : BindType) (maxLen : ℕ) : Option SqlParam :=
  match btype with
  | .tinyint | .smallint | .int | .bigint =>
    some { buffer := .bigint 0, dataLen := 0, maxLen := 8, isNull := some false
           sized := nofun }
  | .float | .double =>
    some { buffer := .double 0, dataLen := 0, maxLen := 8, isNull := some false
           sized := nofun }
  | .char | .varchar =>
    some { buffer := .varchar (List.replicate maxLen 0), dataLen := 0, maxLen := maxLen
           isNull := some false
           sized := by
            intro mem h
            cases h
            exact ⟨List.length_replicate, Nat.zero_le _⟩ }
  | .none | .time | .date | .datetime | .timestamp => none

/-- A prepared statement, both ways.  Parameters are pointed to by their number. -/
structure PsStmt where
  query : Bytes
  /-- `mysql_stmt_param_count` -/
  paramCount : ℕ
  /-- `bound_param` of the emulated statement, empty before it is allocated -/
  boundParam : List ℕ
  /-- what `mysql_stmt_bind_param` has been given -/
  mysqlBind : Option (List ℕ)

structure PsState where
  params : List SqlParam
  stmts : List PsStmt

def PsState.init : PsState := { params := [], stmts := [] }

namespace PsState

variable (s : PsState)

/-- The parameters that the pointers point to. -/
def binds (refs : List ℕ) : List DbBind :=
  refs.filterMap fun r => s.params[r]?.map SqlParam.toDbBind

/-- The values that a server-side statement sends. -/
def sendsValues (stmt : PsStmt) : Option (List (Option Value)) :=
  stmt.mysqlBind.map fun refs =>
    (s.binds refs).map fun bind => (convertToMysqlBind bind).transmitted

end PsState

inductive PsCall where
  | prepare (query : Bytes) (paramCount : ℕ)
  | bindCreate (btype : BindType) (maxLen : ℕ)
  | set (param : ℕ) (value : LuaValue)
  | bindParam (stmt : ℕ) (params : List ℕ)
  | execute (stmt : ℕ)

inductive PsResult where
  | done
  | luaError
  /-- `mysql_drv_bind_param` for an emulated and for a server-side statement -/
  | codes (emulated server : ℤ)
  /-- the parameters that go into the text of the query, and the values -/
  | sent (bound : List DbBind) (values : Option (List (Option Value)))

/-- There is no such parameter or statement. -/
inductive Fault where
  | badPointer

/-- `mysql_drv_bind_param`; only a server-side statement looks at the number of parameters. -/
def mysqlDrvBindParam (stmt : PsStmt) (params : List ℕ) : PsStmt × PsResult :=
  if stmt.paramCount = params.length then
    ({ stmt with boundParam := params, mysqlBind := some params }, .codes 0 0)
  else ({ stmt with boundParam := params }, .codes 0 1)

/-- One call.  The query is kept as `strdup` copies it, and binding nothing does nothing. -/
def psStep (s : PsState) : PsCall → Except Fault (PsState × PsResult)
  | .prepare query paramCount =>
    .ok ({ s with
            stmts := s.stmts ++ [{ query := cstr query, paramCount := paramCount
                                   boundParam := [], mysqlBind := none }] }, .done)
  | .bindCreate btype maxLen =>
    match Bind.bindCreate btype maxLen with
    | none => .ok (s, .luaError)
    | some p => .ok ({ s with params := s.params ++ [p] }, .done)
  | .set param value =>
    match s.params[param]? with
    | none => .error .badPointer
    | some p =>
      .ok ({ s with params := s.params.set param (p.set value).1 },
        if (p.set value).2 then .done else .luaError)
  | .bindParam k params =>
    if params = [] then .ok (s, .done)
    else if params.all (· < s.params.length) then
      match s.stmts[k]? with
      | none => .error .badPointer
      | some stmt =>
        .ok ({ s with stmts := s.stmts.set k (mysqlDrvBindParam stmt params).1 },
          (mysqlDrvBindParam stmt params).2)
    else .error .badPointer
  | .execute k =>
    match s.stmts[k]? with
    | none => .error .badPointer
    | some stmt => .ok (s, .sent (s.binds stmt.boundParam) (s.sendsValues stmt))

end Sysbench.Bind
