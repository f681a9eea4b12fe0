/-
`create_files` of `sb_fileio.c` on a disk that may refuse a call or take only a part of a
write.

`createFiles` makes the same files under the assumption that every `write` takes its whole
block.  Here the results of `open` and `write` are given, and the numbers that the function
reports are kept: `offset` and `written` advance by a block whatever `write` returned.  The
conversion of `file-extra-flags` is left out, and so is the time in the report.
-/
import Sysbench.Model.FileIo

namespace Sysbench.FileIo

/-- What the system returns to calls: whether a file can be opened, and the result of each `write`
of so many bytes, in the order of the calls.  None is an error. -/
structure Disk (size : ℕ) where
  opens : ℕ → Bool
  write : ℕ → Option ℕ
  write_bounds : ∀ k n, write k = some n → 1 ≤ n ∧ n ≤ size

/-- How `create_files` ends without returning 0. -/
inductive CreateFailure where
  /-- It logs the message with `errno` and returns 1. -/
  | returns (message : String)
  | fault (f : IoFault)
  /-- `offset` or `written` does not fit into a `long long`. -/
  | overflow
  /-- The blocks are empty. -/
  | endless
  deriving DecidableEq

/-- The variables of `create_files`, with the number of calls of `write` so far. -/
structure CreateState where
  buf : List UInt8
  calls : ℕ
  written : ℕ
  files : ℕ → List UInt8
  log : List String

/-- What `create_files` leaves: the files, its messages about them, and the number of bytes in the
last message; none is `No bytes written.` -/
structure Created where
  files : ℕ → List UInt8
  log : List String
  reported : Option ℕ

/-- The message about a file that has so many bytes.  `%d` shows its number as an `int`. -/
def fileNotice (cfg : FileConfig) (i offset : ℕ) : String :=
  let name := "test_file." ++ toString ((i : ℤ).bmod (2 ^ 32))
  if cfg.fileSize ≤ offset then "Reusing existing file " ++ name
  else if 0 < offset then "Extending existing file " ++ name
  else "Creating file " ++ name

section Create

variable (crc32 : Crc32) (rand : ℕ → ℕ → ℕ → UInt8) (g : Globals)
  (cfg : FileConfig) (disk : Disk cfg.blockSize)

/-- One round of the loop over a file.  The bytes go to the end of the file, where the last write
has left its position. -/
def writeBlock (i offset : ℕ) (s : CreateState) : Except CreateFailure CreateState := do
  let buf ← (fillForWrite crc32 (rand i offset) g s.buf cfg.blockSize offset).mapError .fault
  if buf.length < cfg.blockSize then .error (.fault .bufferIndex)
  else
    match disk.write s.calls with
    | none => .error (.returns "Failed to write file!")
    | some n =>
      if 2 ^ 63 ≤ s.written + cfg.blockSize ∨ 2 ^ 63 ≤ offset + cfg.blockSize then
        .error .overflow
      else
        .ok { s with
          buf := buf
          calls := s.calls + 1
          written := s.written + cfg.blockSize
          files := Function.update s.files i (s.files i ++ buf.take n) }

/-- The loop over a file.  A block has at least one byte, or it never ends. -/
def writeBlocks (i : ℕ) : ℕ → ℕ → CreateState → Except CreateFailure CreateState
  | 0, offset, s => if offset < cfg.fileSize then .error .endless else .ok s
  | fuel + 1, offset, s =>
    if offset < cfg.fileSize then do
      let s ← writeBlock crc32 rand g cfg disk i offset s
      writeBlocks i fuel (offset + cfg.blockSize) s
    else .ok s

/-- `n` files from file `i` on -/
def writeFiles : ℕ → ℕ → CreateState → Except CreateFailure CreateState
  | 0, _, s => .ok s
  | n + 1, i, s =>
    if disk.opens i then do
      let offset := (s.files i).length
      let s ← writeBlocks crc32 rand g cfg disk i (cfg.fileSize - offset) offset
        { s with log := s.log ++ [fileNotice cfg i offset] }
      writeFiles n (i + 1) s
    else .error (.returns "Can't open file")

/-- `create_files` -/
def createFilesOn (files : ℕ → List UInt8) : Except CreateFailure Created := do
  let s ← writeFiles crc32 rand g cfg disk cfg.numFiles 0
    { buf := List.replicate cfg.requestSize 0, calls := 0, written := 0, files := files, log := [] }
  pure {
    files := s.files
    log := s.log
    reported := if 0 < s.written then some s.written else none }

end Create

end Sysbench.FileIo
