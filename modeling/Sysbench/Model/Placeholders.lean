/-
`replace_placeholders` of `drv_compare.c`: the query of a mismatch with its parameters put in.

The function computes a size from the query and the parameters, allocates a buffer of that
size and writes to it without looking back.  Every write goes to the memory of the buffer
and faults behind its end; `sprintf` writes a terminator, which the next write overwrites.

The size is a `size_t` and wraps as one, so that the buffer can be smaller than the sum.
-/
import Sysbench.Lib.CMemory
import Sysbench.Lib.SqlLiteral
import Sysbench.Model.DbLayer

namespace Sysbench.Placeholders

open CMemory SqlLiteral

inductive Fault where
  | outOfBounds
  /-- a null pointer is followed -/
  | badPointer
  deriving DecidableEq

/-- A `MYSQL_BIND`, its buffer read as `buffer_type` says.  Null pointers are none. -/
inductive MysqlBind where
  | long (buffer : Option Int32)
  | longlong (buffer : Option Int64)
  | string (buffer : Option Bytes) (length : Option ℕ)
  | varString (buffer : Option Bytes) (length : Option ℕ)
  | other

/-- What a string adds to `final_len`. -/
def stringLen : Option Bytes → Option ℕ → ℕ
  | some _, some length => (length * 2 + 2) % 2 ^ 64
  | _, _ => 0

/-- What a parameter adds to `final_len`. -/
def paramLen : MysqlBind → ℕ
  | .long _ => 11
  | .longlong _ => 20
  | .string buffer length => stringLen buffer length
  | .varString buffer length => stringLen buffer length
  | .other => 32

def finalLen (qStr : Bytes) (qParams : List MysqlBind) : ℕ :=
  qParams.foldl (fun len param => (len + paramLen param) % 2 ^ 64)
    (((cstr qStr).length + 1) % 2 ^ 64)

/-- `final_query`, and where `dst` points to in it. -/
structure Dst where
  mem : Bytes
  pos : ℕ

/-- Store bytes at `dst` and advance by `step`. -/
def Dst.store (dst : Dst) (bytes : Bytes) (step : ℕ) : Except Fault Dst :=
  match writeAt dst.mem dst.pos bytes with
  | none => .error .outOfBounds
  | some mem => .ok { mem := mem, pos := dst.pos + step }

/-- `*dst++ = c` -/
def Dst.put (dst : Dst) (c : UInt8) : Except Fault Dst := dst.store [c] 1

/-- `dst += sprintf(dst, …)` -/
def Dst.sprintf (dst : Dst) (text : Bytes) : Except Fault Dst := dst.store (text ++ [0]) text.length

/-- The loop over the bytes of a string, from byte `i` on. -/
def stringLoop (buffer : Bytes) : ℕ → ℕ → Dst → Except Fault Dst
  | 0, _, dst => .ok dst
  | left + 1, i, dst =>
    match buffer[i]? with
    | none => .error .outOfBounds
    | some c => do
      let dst ← if c = 39 ∨ c = 92 then dst.put 92 else pure dst
      let dst ← dst.put c
      stringLoop buffer left (i + 1) dst

def putString (dst : Dst) (buffer : Option Bytes) (length : Option ℕ) : Except Fault Dst := do
  let dst ← dst.put 39
  let dst ← match buffer, length with
    | some buffer, some length => stringLoop buffer length 0 dst
    | _, _ => pure dst
  dst.put 39

/-- The `switch` at a placeholder. -/
def putParam (dst : Dst) : MysqlBind → Except Fault Dst
  | .long none => .error .badPointer
  | .long (some v) => dst.sprintf (signedDecimal v.toInt)
  | .longlong none => .error .badPointer
  | .longlong (some v) => dst.sprintf (signedDecimal v.toInt)
  | .string buffer length => putString dst buffer length
  | .varString buffer length => putString dst buffer length
  | .other => dst.put 63

/-- The loop over the query. -/
def replaceLoop (qParams : List MysqlBind) (paramCount : ℕ) : Bytes → ℕ → Dst → Except Fault Dst
  | [], _, dst => dst.put 0
  | c :: src, paramIndex, dst =>
    if c = 63 ∧ paramIndex < paramCount then
      match qParams[paramIndex]? with
      | none => .error .outOfBounds
      | some param => do
        let dst ← putParam dst param
        replaceLoop qParams paramCount src (paramIndex + 1) dst
    else do
      let dst ← dst.put c
      replaceLoop qParams paramCount src paramIndex dst

/-- `replace_placeholders`; the memory that `malloc` returns holds `heap`, none where it fails. -/
def replacePlaceholders (heap : Option (ℕ → UInt8)) (qStr : Option Bytes)
    (qParams : Option (List MysqlBind)) (paramCount : ℤ) : Except Fault (Option Bytes) :=
  match qStr, qParams with
  | some qStr, some qParams =>
    if paramCount < 0 then .ok none
    else if qParams.length < paramCount then .error .outOfBounds
    else
      match heap with
      | none => .ok none
      | some heap => do
        let size := finalLen qStr (qParams.take paramCount.toNat)
        let dst ← replaceLoop qParams paramCount.toNat (cstr qStr) 0
          { mem := (List.range size).map heap, pos := 0 }
        pure (some dst.mem)
  | _, _ => .ok none

end Sysbench.Placeholders
