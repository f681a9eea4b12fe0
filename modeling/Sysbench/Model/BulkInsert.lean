/-
Multi-row inserts: `db_bulk_insert_init`, `_next` and `_done` of `db_driver.c`.

Rows are collected behind the query's prefix in `bulk_buffer`, separated by commas,
and submitted when the next row would not fit.  The buffer is the memory itself: each
`strcpy` and each single store goes through a bounds check, and the text submitted is
whatever the buffer holds.  The positions are `unsigned int` in the source, so every
addition to one is taken modulo 2 ^ 32.

What `malloc` answers is an argument of `dbBulkInsertInit`: none for NULL, otherwise
the bytes the new buffer happens to hold.
-/
import Sysbench.Lib.CMemory
import Sysbench.Model.DbLayer

namespace Sysbench

open CMemory

def bulkPacketSize : ℕ := 512 * 1024

def rowsBeforeCommit : ℕ := 1000

/-- The bytes of `"COMMIT"` and its terminator. -/
def commitText : Bytes := [67, 79, 77, 77, 73, 84, 0]

variable {σ δ ρ : Type}

def dbDescribe (D : Driver σ δ ρ) (w : World σ δ ρ) : World σ δ ρ × Option DrvCaps :=
  match D.describe with
  | none => (w, none)
  | some op =>
    let (rc, caps) := op w.drv
    (w.record .describe, if rc ≠ 0 then none else some caps)

def dbBulkInsertInit (D : Driver σ δ ρ) (w : World σ δ ρ) (query : Bytes) (queryLen : ℕ)
    (malloc : Option (ℕ → UInt8)) : Except Fault (World σ δ ρ × ℤ) :=
  if w.con.state = .invalid then pure (w, 0)
  else do
    let (w, released) ← releaseResults D w
    if released then
      let (w, caps) := dbDescribe D w
      match caps with
      | none => pure (w, 1)
      | some caps =>
        if queryLen + 1 > bulkPacketSize then pure (w, 1)
        else
          match malloc with
          | none => pure ({ w with con.bulkBuflen := bulkPacketSize, con.bulkBuffer := none }, 1)
          | some fresh =>
            match strcpy ((List.range bulkPacketSize).map fresh) 0 query with
            | none => .error .outOfBounds
            | some buffer =>
              pure ({ w with
                con.bulkBuflen := bulkPacketSize
                con.bulkBuffer := some buffer
                con.bulkCommitMax := if caps.needsCommit then rowsBeforeCommit else 0
                con.bulkCommitCnt := 0
                con.bulkPtr := queryLen % 2 ^ 32
                con.bulkValues := queryLen % 2 ^ 32
                con.bulkCnt := 0 }, 0)
    else pure (w, 0)

/-- The `COMMIT` of `db_bulk_do_insert`: did the driver take it, where one is due? -/
def dbBulkCommit (D : Driver σ δ ρ) (w : World σ δ ρ) (isLast : Bool) :
    Except Fault (World σ δ ρ × Bool) :=
  if w.con.bulkCommitMax ≠ 0 then
    let w := { w with con.bulkCommitCnt := (w.con.bulkCommitCnt + w.con.bulkCnt) % 2 ^ 32 }
    if isLast ∨ w.con.bulkCommitCnt ≥ w.con.bulkCommitMax then do
      let (w, rs) ← dbQuery D w commitText 6
      if !rs ∧ w.con.error ≠ .none then pure (w, false)
      else pure ({ w with con.bulkCommitCnt := 0 }, true)
    else pure (w, true)
  else pure (w, true)

def dbBulkDoInsert (D : Driver σ δ ρ) (w : World σ δ ρ) (isLast : Bool) :
    Except Fault (World σ δ ρ × ℤ) :=
  if w.con.bulkCnt = 0 then pure (w, 0)
  else do
    let (w, rs) ← dbQuery D w (w.con.bulkBuffer.getD []) w.con.bulkPtr
    if !rs ∧ w.con.error ≠ .none then pure (w, 1)
    else do
      let (w, committed) ← dbBulkCommit D w isLast
      if committed then pure ({ w with con.bulkPtr := w.con.bulkValues, con.bulkCnt := 0 }, 0)
      else pure (w, 1)

/-- The end of `db_bulk_insert_next`: copy the row behind what is there. -/
def dbBulkAppend (w : World σ δ ρ) (query : Bytes) (queryLen : ℕ) :
    Except Fault (World σ δ ρ × ℤ) :=
  let buffer := w.con.bulkBuffer.getD []
  let stored :=
    if w.con.bulkCnt > 0 then do
      let buffer ← writeAt buffer w.con.bulkPtr [44]
      strcpy buffer (w.con.bulkPtr + 1) query
    else strcpy buffer w.con.bulkPtr query
  match stored with
  | none => .error .outOfBounds
  | some buffer =>
    let comma := if w.con.bulkCnt > 0 then 1 else 0
    .ok ({ w with
      con.bulkBuffer := some buffer
      con.bulkPtr := (w.con.bulkPtr + queryLen + comma) % 2 ^ 32
      con.bulkCnt := (w.con.bulkCnt + 1) % 2 ^ 32 }, 0)

/-- `db_bulk_insert_next`.  Whether the row fits is asked once, before the rows
collected so far are submitted, and not again after that. -/
def dbBulkInsertNext (D : Driver σ δ ρ) (w : World σ δ ρ) (query : Bytes) (queryLen : ℕ) :
    Except Fault (World σ δ ρ × ℤ) :=
  if w.con.state = .invalid then pure (w, 0)
  else do
    let (w, released) ← releaseResults D w
    if released then
      match w.con.bulkBuffer with
      | none => pure (w, 1)
      | some _ =>
        let comma := if w.con.bulkCnt > 0 then 1 else 0
        if w.con.bulkPtr + queryLen + 1 + comma > w.con.bulkBuflen then
          if w.con.bulkCnt = 0 then pure (w, 1)
          else do
            let (w, rc) ← dbBulkDoInsert D w false
            if rc ≠ 0 then pure (w, 1) else dbBulkAppend w query queryLen
        else dbBulkAppend w query queryLen
    else pure (w, 0)

def dbBulkInsertDone (D : Driver σ δ ρ) (w : World σ δ ρ) : Except Fault (World σ δ ρ × ℤ) := do
  let (w, rc) ← dbBulkDoInsert D w true
  if rc ≠ 0 then pure (w, 1)
  else pure ({ w with con.bulkBuffer := none }, 0)

end Sysbench
