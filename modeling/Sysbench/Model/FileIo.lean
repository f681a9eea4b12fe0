/-
The file I/O test of `sb_fileio.c`: its options, the two request generators, the files
made by `prepare`, and the execution of a request.

The generators share a handful of static variables (`FileState`).  The sequential one
takes the thread mutex, so a run of it is a run of whole calls; a call of the random one
is one step here too.  Random draws, the random bytes of a filled buffer and `crc32` are
parameters, so what is proved holds for all of them.  Storage is a list of bytes per file
and returns what was written last; `file_io_mode` matters to the statistics only.

`long long` positions and sizes are ℕ where the source keeps them from being negative,
and the two conversions that do wrap around, of `file-num` and of the block size, are
written out.  What the source leaves undefined or lets run out of bounds is an `IoFault`.
-/
import Mathlib.Algebra.Ring.Rat
import Mathlib.Logic.Function.Basic
import Sysbench.Lib.ByteStore
import Sysbench.Model.Counter
import Sysbench.Model.Options

namespace Sysbench.FileIo

open Function ByteStore

/-! ### Options -/

inductive FileTestMode where
  | read
  | write
  | rewrite
  | rndRead
  | rndWrite
  | rndRw
  | mixed
  deriving DecidableEq

inductive FileIoMode where
  | sync
  | async
  | mmap
  deriving DecidableEq

inductive FileFsyncMode where
  | all
  | data
  deriving DecidableEq

/-- `file_flags_t`, one field for each bit. -/
structure FileFlags where
  sync : Bool
  dsync : Bool
  directio : Bool
  deriving DecidableEq

/-- What the test reads of `sb_globals`. -/
structure Globals where
  cmdname : String
  threads : ℕ
  validate : Bool

/-- The values of `fileio_args` as the getters return them. -/
structure FileOptions where
  /-- An `int` -/
  fileNum : ℤ
  fileTotalSize : UInt64
  fileTestMode : Option String
  fileIoMode : Option String
  fileMergedRequests : ℤ
  fileBlockSize : UInt64
  fileExtraFlags : List String
  fileFsyncFreq : ℤ
  fileFsyncAll : Bool
  fileFsyncEnd : Bool
  fileFsyncMode : String
  fileRwRatio : ℚ

/-- The static variables that `parse_arguments` sets, with the defaults of `fileio_args`. -/
structure FileConfig where
  numFiles : ℕ
  totalSize : ℕ
  fileSize : ℕ
  testMode : FileTestMode
  ioMode : FileIoMode := .sync
  mergedRequests : ℕ := 0
  blockSize : ℕ
  requestSize : ℕ
  extraFlags : FileFlags := ⟨false, false, false⟩
  fsyncFreq : ℕ := 100
  fsyncAll : Bool := false
  fsyncEnd : Bool := true
  fsyncMode : FileFsyncMode := .all
  rwRatio : ℚ := 3 / 2
  deriving DecidableEq

/-- Give up with a message. -/
def rejectIf (c : Prop) [Decidable c] (message : String) : Except String Unit :=
  if c then .error message else .ok ()

/-- The test mode of a `run`; the other commands leave the first mode of the type. -/
def getTestMode (g : Globals) (mode : Option String) : Except String FileTestMode :=
  if g.cmdname = "run" then
    match mode with
    | none => .error "Missing required argument: --file-test-mode\n"
    | some mode =>
      if mode = "seqwr" then .ok .write
      else if mode = "seqrewr" then .ok .rewrite
      else if mode = "seqrd" then .ok .read
      else if mode = "rndrd" then .ok .rndRead
      else if mode = "rndwr" then .ok .rndWrite
      else if mode = "rndrw" then .ok .rndRw
      else .error ("Invalid IO operations mode: " ++ mode ++ ".")
  else .ok .read

def getIoMode (mode : Option String) : Except String FileIoMode :=
  let mode := mode.getD "sync"
  if mode = "sync" then .ok .sync
  else if mode = "async" then .ok .async
  else if mode = "mmap" then .ok .mmap
  else .error ("unknown I/O mode: " ++ mode)

/-- The loop over `file-extra-flags`; the message shows the first value of the list. -/
def getExtraFlags (mode : String) : FileFlags → List String → Except String FileFlags
  | flags, [] => .ok flags
  | flags, val :: vals =>
    if val = "sync" then getExtraFlags mode { flags with sync := true } vals
    else if val = "dsync" then getExtraFlags mode { flags with dsync := true } vals
    else if val = "direct" then getExtraFlags mode { flags with directio := true } vals
    else .error ("Invalid value for file-extra-flags: " ++ mode)

def getFsyncMode (mode : String) : Except String FileFsyncMode :=
  if mode = "fsync" then .ok .all
  else if mode = "fdatasync" then .ok .data
  else .error ("Invalid fsync mode: " ++ mode ++ ".")

/-- `file_request_size`: the product is one of two `int`s. -/
def requestSizeOf (blockSize mergedRequests : ℤ) : ℤ :=
  if mergedRequests > 0 then (blockSize * mergedRequests).bmod (2 ^ 32) else blockSize

/-- `parse_arguments`.  `memalign` says which sizes of a buffer can be allocated; a negative
one turns into an address range that none is. -/
def parseArguments (memalign : ℕ → Bool) (g : Globals) (o : FileOptions) :
    Except String FileConfig := do
  let numFiles := (o.fileNum % 2 ^ 32).toNat
  rejectIf (numFiles = 0) ("Invalid value for file-num: " ++ toString numFiles)
  let totalSize := (o.fileTotalSize.toNat : ℤ).bmod (2 ^ 64)
  rejectIf (totalSize ≤ 0) ("Invalid value for file-total-size: " ++ toString totalSize)
  let testMode ← getTestMode g o.fileTestMode
  let ioMode ← getIoMode o.fileIoMode
  rejectIf (o.fileMergedRequests < 0)
    ("Invalid value for file-merged-requests: " ++ toString o.fileMergedRequests ++ ".")
  let blockSize := (o.fileBlockSize.toNat : ℤ).bmod (2 ^ 32)
  rejectIf (blockSize ≤ 0) ("Invalid value for file-block-size: " ++ toString blockSize ++ ".")
  let requestSize := requestSizeOf blockSize o.fileMergedRequests
  let extraFlags ← getExtraFlags (o.fileExtraFlags.headD "") ⟨false, false, false⟩
    o.fileExtraFlags
  rejectIf (o.fileFsyncFreq < 0)
    ("Invalid value for file-fsync-freq: " ++ toString o.fileFsyncFreq ++ ".")
  let fsyncMode ← getFsyncMode o.fileFsyncMode
  -- The message also has the value, in the format of `%f`.
  rejectIf (o.fileRwRatio < 0) "Invalid value for --file-rw-ratio"
  rejectIf (requestSize < 0 ∨ memalign requestSize.toNat = false)
    "Failed to allocate a memory buffer"
  pure {
    numFiles := numFiles
    totalSize := totalSize.toNat
    fileSize := totalSize.toNat / numFiles
    testMode := testMode
    ioMode := ioMode
    mergedRequests := o.fileMergedRequests.toNat
    blockSize := blockSize.toNat
    requestSize := requestSize.toNat
    extraFlags := extraFlags
    -- `file-fsync-all` overrides the other two.
    fsyncFreq := if o.fileFsyncAll then 0 else o.fileFsyncFreq.toNat
    fsyncAll := o.fileFsyncAll
    fsyncEnd := if o.fileFsyncAll then false else o.fileFsyncEnd
    fsyncMode := fsyncMode
    rwRatio := o.fileRwRatio }

section Registered

open Options

def fileioArgs : List SbArg :=
  [⟨"file-num".toList, some "128".toList, .int, none⟩,
    ⟨"file-block-size".toList, some "16384".toList, .int, none⟩,
    ⟨"file-total-size".toList, some "2G".toList, .size, none⟩,
    ⟨"file-test-mode".toList, none, .string, none⟩,
    ⟨"file-io-mode".toList, some "sync".toList, .string, none⟩,
    ⟨"file-async-backlog".toList, some "128".toList, .int, none⟩,
    ⟨"file-extra-flags".toList, some [], .list, none⟩,
    ⟨"file-fsync-freq".toList, some "100".toList, .int, none⟩,
    ⟨"file-fsync-all".toList, some "off".toList, .bool, none⟩,
    ⟨"file-fsync-end".toList, some "on".toList, .bool, none⟩,
    ⟨"file-fsync-mode".toList, some "fsync".toList, .string, none⟩,
    ⟨"file-merged-requests".toList, some "0".toList, .int, none⟩,
    ⟨"file-rw-ratio".toList, some "1.5".toList, .double, none⟩]

/-- The values `parse_arguments` gets, all of them before the first is checked.  None is an exit
in a getter, or a NULL pointer for a list or for `file-fsync-mode`. -/
def getFileOptions (strtod : Text → ℚ) (options : Registry) : Option FileOptions := do
  let fileNum ← sbGetValueInt options "file-num".toList
  let fileMergedRequests ← sbGetValueInt options "file-merged-requests".toList
  let fileExtraFlags ← sbGetValueList options "file-extra-flags".toList
  let fileFsyncFreq ← sbGetValueInt options "file-fsync-freq".toList
  let fileFsyncMode ← sbGetValueString options "file-fsync-mode".toList
  pure {
    fileNum := fileNum
    fileTotalSize := sbGetValueSize options "file-total-size".toList
    fileTestMode := (sbGetValueString options "file-test-mode".toList).map String.ofList
    fileIoMode := (sbGetValueString options "file-io-mode".toList).map String.ofList
    fileMergedRequests := fileMergedRequests
    fileBlockSize := sbGetValueSize options "file-block-size".toList
    fileExtraFlags := fileExtraFlags.map String.ofList
    fileFsyncFreq := fileFsyncFreq
    fileFsyncAll := sbGetValueFlag options "file-fsync-all".toList
    fileFsyncEnd := sbGetValueFlag options "file-fsync-end".toList
    fileFsyncMode := String.ofList fileFsyncMode
    fileRwRatio := sbGetValueDouble strtod options "file-rw-ratio".toList }

end Registered

/-! ### Requests -/

/-- `sb_file_op_t` -/
inductive FileOp where
  | null
  | read
  | write
  | fsync
  deriving DecidableEq

/-- `sb_file_request_t` -/
structure FileRequest where
  fileId : ℕ
  pos : ℕ
  size : ℕ
  operation : FileOp
  deriving DecidableEq

/-- A read or a write. -/
def FileRequest.IsData (r : FileRequest) : Prop :=
  r.operation = .read ∨ r.operation = .write

instance (r : FileRequest) : Decidable r.IsData :=
  inferInstanceAs (Decidable (r.operation = .read ∨ r.operation = .write))

/-- The fsync request for a file. -/
def fsyncOf (file : ℕ) : FileRequest :=
  { fileId := file, pos := 0, size := 0, operation := .fsync }

/-- What goes wrong outside the program's own error handling. -/
inductive IoFault where
  | divisionByZero
  /-- `files` has no such element. -/
  | filesIndex (fileId : ℕ)
  /-- An index behind the request or behind the buffer -/
  | bufferIndex
  deriving DecidableEq

/-- The block a thread is working on: `sb_per_thread_t` without the buffer. -/
structure PerThread where
  bufferFileId : ℕ
  bufferPos : ℕ

/-- The static variables of the generators. -/
structure FileState where
  position : ℕ
  currentFile : ℕ
  fsyncedFile : ℕ
  isDirty : Bool
  reqPerformed : UInt32
  prevReq : FileRequest
  perThread : ℕ → PerThread
  /-- The warnings of `check_seq_req`, newest first. -/
  warnings : List String

/-- `init_vars`.  `per_thread` comes from `malloc` and holds anything. -/
def initVars (perThread : ℕ → PerThread) : FileState where
  position := 0
  currentFile := 0
  fsyncedFile := 0
  isDirty := false
  reqPerformed := 0
  prevReq := { fileId := 0, pos := 0, size := 0, operation := .null }
  perThread := perThread
  warnings := []

/-- The condition on `is_dirty` and `req_performed` that both generators test. -/
def fsyncDue (cfg : FileConfig) (s : FileState) : Prop :=
  cfg.fsyncFreq ≠ 0 ∧ s.isDirty = true ∧ s.reqPerformed.toNat % cfg.fsyncFreq = 0

instance (cfg : FileConfig) (s : FileState) : Decidable (fsyncDue cfg s) :=
  inferInstanceAs (Decidable (_ ∧ _ ∧ _))

/-- The next request of a series that syncs every file once. -/
def fsyncRequest (cfg : FileConfig) (s : FileState) : FileRequest × FileState :=
  ({ fileId := s.fsyncedFile, pos := 0, size := 0, operation := .fsync },
    if s.fsyncedFile + 1 = cfg.numFiles then { s with fsyncedFile := 0, isDirty := false }
    else { s with fsyncedFile := s.fsyncedFile + 1 })

/-- `check_seq_req`: the warning it logs, if any.  `file_id` is unsigned, so a step back is
a large difference. -/
def checkSeqReq (cfg : FileConfig) (prev r : FileRequest) : Option String :=
  if r.operation = .fsync ∨ r.operation = .null then none
  else if prev.operation = .null then none
  else if 1 < (r.fileId + 2 ^ 32 - prev.fileId) % 2 ^ 32 ∧
      ¬(r.fileId = 0 ∧ prev.fileId = cfg.numFiles - 1) then
    some "Discovered too large file difference in seq requests!"
  else if r.fileId = prev.fileId then
    if (r.pos : ℤ) - prev.pos ≠ prev.size then
      some "Discovered too large position difference in seq request!"
    else none
  else if prev.pos + prev.size ≠ cfg.fileSize ∨ r.pos ≠ 0 then
    some "Invalid file switch found!"
  else none

/-- The operation of a sequential test. -/
def seqOperation (cfg : FileConfig) : FileOp :=
  if cfg.testMode = .write ∨ cfg.testMode = .rewrite then .write else .read

/-- Rewind to the first file if all files are processed. -/
def rewind (cfg : FileConfig) (s : FileState) : FileState :=
  if s.currentFile = cfg.numFiles then { s with position := 0, currentFile := 0 } else s

/-- The request for the next piece of the current file. -/
def seqDataRequest (cfg : FileConfig) (s : FileState) : FileRequest where
  fileId := s.currentFile
  pos := s.position
  size := min cfg.requestSize (cfg.fileSize - s.position)
  operation := seqOperation cfg

/-- Go on behind a piece, to the next file if this one is done. -/
def advance (cfg : FileConfig) (s : FileState) (size : ℕ) : FileState :=
  if s.position + size = cfg.fileSize then
    { s with position := 0, currentFile := s.currentFile + 1 }
  else { s with position := s.position + size }

def fileGetSeqRequest (g : Globals) (cfg : FileConfig) (s : FileState) :
    FileRequest × FileState :=
  if seqOperation cfg = .write ∧ fsyncDue cfg s then fsyncRequest cfg s
  else
    let s := { s with
      reqPerformed := s.reqPerformed + 1
      isDirty := s.isDirty || seqOperation cfg = .write }
    let s := rewind cfg s
    let r := seqDataRequest cfg s
    let s := advance cfg s r.size
    (r, if g.validate then
        { s with
          warnings := (checkSeqReq cfg s.prevReq r).toList ++ s.warnings
          prevReq := r }
      else s)

/-- Some calls in a row: their requests in order, and the state they leave. -/
def fileGetSeqRequests (g : Globals) (cfg : FileConfig) : ℕ → FileState →
    List FileRequest × FileState
  | 0, s => ([], s)
  | k + 1, s =>
    let first := fileGetSeqRequest g cfg s
    let rest := fileGetSeqRequests g cfg k first.2
    (first.1 :: rest.1, rest.2)

/-- The position drawn, moved back to the start of a block. -/
def roundToBlock (cfg : FileConfig) (tmppos : ℕ) : ℕ :=
  tmppos - tmppos % cfg.blockSize

/-- The request at a position drawn from `[0, total_size)`: the lines behind `retry`. -/
def rndDataRequest (cfg : FileConfig) (operation : FileOp) (tmppos : ℕ) :
    Except IoFault FileRequest :=
  if cfg.blockSize = 0 ∨ cfg.fileSize = 0 then .error .divisionByZero
  else
    let tmppos := roundToBlock cfg tmppos
    .ok {
      -- The quotient goes through an `int` into an `unsigned int`.
      fileId := tmppos / cfg.fileSize % 2 ^ 32
      pos := tmppos % cfg.fileSize
      size := min cfg.blockSize (cfg.fileSize - tmppos % cfg.fileSize)
      operation := operation }

/-- Another thread is working on the block of the request. -/
def blockInUse (g : Globals) (s : FileState) (thread : ℕ) (r : FileRequest) : Bool :=
  (List.range g.threads).any fun i =>
    i ≠ thread && (s.perThread i).bufferFileId = r.fileId && (s.perThread i).bufferPos = r.pos

/-- The loop at `retry`, over the positions drawn; with none left it is still looking. -/
def retryRnd (g : Globals) (cfg : FileConfig) (s : FileState) (thread : ℕ) (operation : FileOp) :
    List ℕ → Except IoFault (Option FileRequest)
  | [] => .ok none
  | tmppos :: draws => do
    let r ← rndDataRequest cfg operation tmppos
    if g.validate && blockInUse g s thread r then retryRnd g cfg s thread operation draws
    else pure (some r)

/-- The operation of a random request.  `quotient` is the `double` division of the two
counters, however it rounds. -/
def rndOperation (quotient : UInt64 → UInt64 → ℚ) (cfg : FileConfig) (counters : SbCounters) :
    FileOp :=
  if cfg.testMode = .rndRw then
    if quotient (counters .read) (counters .write) < cfg.rwRatio then .read else .write
  else if cfg.testMode = .rndWrite then .write
  else .read

/-- What a random data request leaves behind. -/
def recordRnd (s : FileState) (thread : ℕ) (r : FileRequest) : FileState :=
  { s with
    perThread := update s.perThread thread ⟨r.fileId, r.pos⟩
    reqPerformed := s.reqPerformed + 1
    isDirty := s.isDirty || r.operation = .write }

def fileGetRndRequest (quotient : UInt64 → UInt64 → ℚ) (g : Globals) (cfg : FileConfig)
    (counters : SbCounters) (s : FileState) (thread : ℕ) (draws : List ℕ) :
    Except IoFault (Option (FileRequest × FileState)) :=
  if fsyncDue cfg s then .ok (some (fsyncRequest cfg s))
  else do
    match ← retryRnd g cfg s thread (rndOperation quotient cfg counters) draws with
    | none => pure none
    | some r => pure (some (r, recordRnd s thread r))

/-- A call of a generator. -/
inductive GenCall where
  | seq
  | rnd (counters : SbCounters) (thread : ℕ) (draws : List ℕ)

/-- The modes in which `file_next_event` calls the sequential generator. -/
def FileTestMode.sequential : FileTestMode → Bool
  | .write | .rewrite | .read => true
  | _ => false

/-- Make a call and keep its request, if it comes back with one. -/
def genStep (quotient : UInt64 → UInt64 → ℚ) (g : Globals) (cfg : FileConfig) (s : FileState) :
    GenCall → Except IoFault (FileState × Option FileRequest)
  | .seq =>
    let (r, s') := fileGetSeqRequest g cfg s
    .ok (s', some r)
  | .rnd counters thread draws => do
    match ← fileGetRndRequest quotient g cfg counters s thread draws with
    | none => pure (s, none)
    | some (r, s') => pure (s', some r)

/-! ### Buffers -/

/-- `FILE_CHECKSUM_LENGTH + FILE_OFFSET_LENGTH` -/
def trailerLength : ℕ := 4 + 8

/-- A checksum of the bytes of a block. -/
abbrev Crc32 := List UInt8 → UInt32

/-- `file_fill_buffer`.  The bound of the loop is a difference of two `size_t`. -/
def fileFillBuffer (crc32 : Crc32) (rand : ℕ → UInt8) (buf : List UInt8)
    (len offset : ℕ) : Except IoFault (List UInt8) :=
  let bound := (len + 2 ^ 64 - trailerLength) % 2 ^ 64
  if bound + trailerLength ≤ len ∧ len ≤ buf.length then
    let body := (List.range bound).map rand
    .ok (body ++ le 4 (crc32 body).toNat ++ le 8 offset ++ buf.drop len)
  else .error .bufferIndex

/-- Fill the buffer for a write, in validation mode. -/
def fillForWrite (crc32 : Crc32) (rand : ℕ → UInt8) (g : Globals)
    (buf : List UInt8) (len offset : ℕ) : Except IoFault (List UInt8) :=
  if g.validate then fileFillBuffer crc32 rand buf len offset else .ok buf

/-- What `file_validate_buffer` finds. -/
inductive BufferCheck where
  | valid
  | checksumMismatch
  | offsetMismatch
  deriving DecidableEq

/-- `file_validate_buffer`.  `cs_offset` is an `unsigned int`. -/
def fileValidateBuffer (crc32 : Crc32) (buf : List UInt8) (len offset : ℕ) :
    Except IoFault BufferCheck :=
  let csOffset := (len + 2 ^ 64 - trailerLength) % 2 ^ 32
  if csOffset + trailerLength ≤ len ∧ len ≤ buf.length then
    if (crc32 (buf.take csOffset)).toNat ≠ leVal (pread buf csOffset 4) then
      .ok .checksumMismatch
    else if offset ≠ leVal (pread buf (csOffset + 4) 8) then .ok .offsetMismatch
    else .ok .valid
  else .error .bufferIndex

/-! ### Files -/

/-- The loop of `create_files` over one file, from `offset` on.  Every round writes at least
one byte, so there are at most as many as bytes missing. -/
def createBlocks (crc32 : Crc32) (rand : ℕ → ℕ → UInt8) (g : Globals)
    (cfg : FileConfig) : ℕ → ℕ → List UInt8 → List UInt8 →
    Except IoFault (List UInt8 × List UInt8)
  | 0, _, buf, file => .ok (buf, file)
  | fuel + 1, offset, buf, file =>
    if offset < cfg.fileSize then do
      let buf ← fillForWrite crc32 (rand offset) g buf cfg.blockSize offset
      createBlocks crc32 rand g cfg fuel (offset + cfg.blockSize) buf
        (file ++ buf.take cfg.blockSize)
    else .ok (buf, file)

/-- `create_files` from file `i` on, `n` files in all.  A file that exists is extended. -/
def createFilesFrom (crc32 : Crc32) (rand : ℕ → ℕ → ℕ → UInt8) (g : Globals)
    (cfg : FileConfig) : ℕ → ℕ → List UInt8 → (ℕ → List UInt8) →
    Except IoFault (ℕ → List UInt8)
  | 0, _, _, files => .ok files
  | n + 1, i, buf, files => do
    let (buf, file) ← createBlocks crc32 (rand i) g cfg (cfg.fileSize - (files i).length)
      (files i).length buf (files i)
    createFilesFrom crc32 rand g cfg n (i + 1) buf (update files i file)

def createFiles (crc32 : Crc32) (rand : ℕ → ℕ → ℕ → UInt8) (g : Globals)
    (cfg : FileConfig) (files : ℕ → List UInt8) : Except IoFault (ℕ → List UInt8) :=
  createFilesFrom crc32 rand g cfg cfg.numFiles 0 (List.replicate cfg.requestSize 0) files

/-! ### Execution -/

/-- The state of a run. -/
structure IoState where
  gen : FileState
  files : ℕ → List UInt8
  /-- `per_thread[i].buffer` -/
  buffers : ℕ → List UInt8
  counters : ℕ → SbCounters

/-- What `file_execute_event` reports; `done` is the return value 0. -/
inductive EventStatus where
  | done
  | incorrectFileId
  | exceedsFileSize
  | nullRequest
  | readFailed
  | validationFailed
  deriving DecidableEq

/-- `sb_counter_add` for the thread's own slot -/
def IoState.count (s : IoState) (thread : ℕ) (t : SbCounterType) (n : UInt64) : IoState :=
  { s with
    counters := update s.counters thread
      (update (s.counters thread) t (s.counters thread t + n)) }

/-- `file_fsync`, which leaves the bytes as they are -/
def fileFsync (s : IoState) (thread : ℕ) : IoState :=
  s.count thread .other 1

/-- The statistics of a finished request; the asynchronous mode keeps its own. -/
def countRequest (cfg : FileConfig) (s : IoState) (thread : ℕ) (op bytes : SbCounterType)
    (size : ℕ) : IoState :=
  if cfg.ioMode = .async then s
  else (s.count thread op 1).count thread bytes (UInt64.ofNat size)

/-- The `FILE_OP_TYPE_WRITE` case -/
def executeWrite (crc32 : Crc32) (rand : ℕ → UInt8) (g : Globals)
    (cfg : FileConfig) (s : IoState) (thread : ℕ) (r : FileRequest) :
    Except IoFault (IoState × EventStatus) := do
  let buf ← fillForWrite crc32 rand g (s.buffers thread) (r.size % 2 ^ 32) r.pos
  let s := { s with
    buffers := update s.buffers thread buf
    files := update s.files r.fileId
      (pwrite 0 (s.files r.fileId) r.pos (buf.take r.size)) }
  let s := if cfg.fsyncAll then fileFsync s thread else s
  pure (countRequest cfg s thread .write .bytesWritten r.size, .done)

/-- The `FILE_OP_TYPE_READ` case -/
def executeRead (crc32 : Crc32) (g : Globals) (cfg : FileConfig) (s : IoState)
    (thread : ℕ) (r : FileRequest) : Except IoFault (IoState × EventStatus) :=
  let bytes := pread (s.files r.fileId) r.pos r.size
  let buf := bytes ++ (s.buffers thread).drop bytes.length
  let s := { s with buffers := update s.buffers thread buf }
  if bytes.length ≠ r.size then .ok (s, .readFailed)
  else if g.validate then do
    match ← fileValidateBuffer crc32 buf (r.size % 2 ^ 32) r.pos with
    | .valid => pure (countRequest cfg s thread .read .bytesRead r.size, .done)
    | _ => pure (s, .validationFailed)
  else .ok (countRequest cfg s thread .read .bytesRead r.size, .done)

def fileExecuteEvent (crc32 : Crc32) (rand : ℕ → UInt8) (g : Globals)
    (cfg : FileConfig) (s : IoState) (thread : ℕ) (r : FileRequest) :
    Except IoFault (IoState × EventStatus) :=
  if r.fileId > cfg.numFiles then .ok (s, .incorrectFileId)
  else if r.pos + r.size > cfg.fileSize then .ok (s, .exceedsFileSize)
  -- `files` has `num_files` elements, the check above lets one id more pass.
  else if cfg.numFiles ≤ r.fileId then .error (.filesIndex r.fileId)
  else
    match r.operation with
    | .null => .ok (s, .nullRequest)
    | .write => executeWrite crc32 rand g cfg s thread r
    | .read => executeRead crc32 g cfg s thread r
    | .fsync => .ok (if cfg.fsyncAll then s else fileFsync s thread, .done)

/-- One request: which generator it comes from, and the random numbers used for it. -/
inductive IoCall where
  | seq (rand : ℕ → UInt8)
  | rnd (draws : List ℕ) (rand : ℕ → UInt8)

/-- Generate a request and execute it. -/
def ioStep (crc32 : Crc32) (quotient : UInt64 → UInt64 → ℚ) (g : Globals)
    (cfg : FileConfig) (thread : ℕ) (s : IoState) :
    IoCall → Except IoFault (IoState × EventStatus)
  | .seq rand =>
    let (r, gen) := fileGetSeqRequest g cfg s.gen
    fileExecuteEvent crc32 rand g cfg { s with gen := gen } thread r
  | .rnd draws rand => do
    match ← fileGetRndRequest quotient g cfg (s.counters thread) s.gen thread draws with
    | none => pure (s, .done)
    | some (r, gen) => fileExecuteEvent crc32 rand g cfg { s with gen := gen } thread r

/-- The start of a run over given files. -/
def ioStart (cfg : FileConfig) (perThread : ℕ → PerThread) (files : ℕ → List UInt8) :
    IoState where
  gen := initVars perThread
  files := files
  buffers := fun _ => List.replicate cfg.requestSize 0
  counters := fun _ _ => 0

end Sysbench.FileIo
