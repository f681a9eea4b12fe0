/-
Asynchronous I/O of `sb_fileio.c`: the accounting of `file_submit_or_wait` and `file_wait`,
`file_thread_done`, and `file_execute_event` with `--file-io-mode=async`.

What comes from outside is given: whether `malloc`, `io_submit` and `fsync` succeed, and which
events `io_getevents` returns.  The kernel carries out the operations it has been given in its
own order and at its own time: `perform` is one of them taking effect, between the submission
and the report.  Every operation of a thread uses the thread's one buffer.

`io_getevents` is the one with a minimum; an fsync is synchronous in this mode as well.
-/
import Sysbench.Model.FileIo

namespace Sysbench.FileIo

open ByteStore

/-! ### Accounting -/

/-- `sb_aio_oper_t`, with the place in the files from its `iocb` -/
structure AioOper where
  type : FileOp
  len : ℕ
  fileId : ℕ
  pos : ℕ
  deriving DecidableEq

/-- `struct io_event` -/
structure AioEvent where
  oper : AioOper
  res : ℤ
  deriving DecidableEq

/-- An element of `aio_ctxts`, the operations that the kernel has of it, and the counters of the
thread. -/
structure AioContext where
  nrequests : UInt32
  /-- submitted and not yet reported -/
  inFlight : Multiset AioOper
  counters : SbCounters

/-- `sb_counter_add` for the thread -/
def AioContext.count (c : AioContext) (t : SbCounterType) (n : UInt64) : AioContext :=
  { c with counters := Function.update c.counters t (c.counters t + n) }

/-- The message of `file_wait` if the result is not the one expected. -/
def AioEvent.failure (e : AioEvent) : Option String :=
  match e.oper.type with
  | .fsync => if e.res ≠ 0 then some "Asynchronous fsync failed!\n" else none
  | .read => if e.res ≠ e.oper.len then some "Asynchronous read failed!\n" else none
  | .write => if e.res ≠ e.oper.len then some "Asynchronous write failed!\n" else none
  | .null => none

/-- The statistics of an operation -/
def AioContext.countOper (c : AioContext) (oper : AioOper) : AioContext :=
  match oper.type with
  | .fsync => c.count .other 1
  | .read => (c.count .read 1).count .bytesRead (UInt64.ofNat oper.len)
  | .write => (c.count .write 1).count .bytesWritten (UInt64.ofNat oper.len)
  | .null => c

/-- The loop of `file_wait` over the events.  A message stands for the return value 1. -/
def waitLoop : List AioEvent → AioContext → AioContext × Option String
  | [], c => (c, none)
  | e :: events, c =>
    match e.failure with
    | some message => (c, some message)
    | none =>
      let c := c.countOper e.oper
      waitLoop events { c with nrequests := c.nrequests - 1 }

/-- `file_wait`, with what `io_getevents` returns; that it fails is no event. -/
def fileWait (events : List AioEvent) (c : AioContext) : AioContext × Option String :=
  let reported : Multiset AioOper := events.map AioEvent.oper
  if events = [] then (c, some "io_getevents() failed!")
  else waitLoop events { c with inFlight := c.inFlight - reported }

/-- What `file_submit_or_wait` gets from outside: the events only matter if it waits. -/
structure SubmitAnswer where
  malloc : Bool
  submit : Bool
  events : List AioEvent

/-- The context behind `io_submit` -/
def AioContext.submitted (c : AioContext) (oper : AioOper) : AioContext :=
  { c with nrequests := c.nrequests + 1, inFlight := oper ::ₘ c.inFlight }

def fileSubmitOrWait (backlog : UInt32) (answer : SubmitAnswer) (oper : AioOper) (c : AioContext) :
    AioContext × Option String :=
  if answer.malloc = false then (c, some "Failed to allocate AIO operation!")
  else if answer.submit = false then (c, some "io_submit() failed!")
  else if (c.submitted oper).nrequests < backlog then (c.submitted oper, none)
  else fileWait answer.events (c.submitted oper)

/-- The fsyncs of `file_thread_done`, of `n` files from file `i` on -/
def fsyncFiles (fsync : ℕ → Bool) : ℕ → ℕ → AioContext → AioContext × Option String
  | 0, _, c => (c, none)
  | n + 1, i, c =>
    if fsync i then fsyncFiles fsync n (i + 1) (c.count .other 1)
    else (c, some "Failed to fsync file!")

/-- The first part of `file_thread_done` -/
def fsyncAtEnd (cfg : FileConfig) (fsync : ℕ → Bool) (c : AioContext) :
    AioContext × Option String :=
  if cfg.fsyncEnd = true ∧ cfg.testMode ≠ .read ∧ cfg.testMode ≠ .rndRead then
    fsyncFiles fsync cfg.numFiles 0 c
  else (c, none)

def fileThreadDone (cfg : FileConfig) (fsync : ℕ → Bool) (events : List AioEvent)
    (c : AioContext) : AioContext × Option String :=
  match fsyncAtEnd cfg fsync c with
  | (c, some message) => (c, some message)
  | (c, none) =>
    if cfg.ioMode = .async ∧ 0 < c.nrequests then fileWait events c else (c, none)

/-! ### Histories -/

/-- The events that a call of `file_submit_or_wait` reports. -/
def SubmitAnswer.reported (answer : SubmitAnswer) (backlog : UInt32) (oper : AioOper)
    (c : AioContext) : List AioEvent :=
  if answer.malloc = true ∧ answer.submit = true ∧ ¬(c.submitted oper).nrequests < backlog then
    answer.events
  else []

/-- The events that `file_thread_done` reports. -/
def doneReported (cfg : FileConfig) (fsync : ℕ → Bool) (events : List AioEvent) (c : AioContext) :
    List AioEvent :=
  if (fsyncAtEnd cfg fsync c).2 = none ∧ cfg.ioMode = .async ∧ 0 < c.nrequests then events else []

/-- A thread's context, with the operations submitted and reported so far -/
structure AioRun where
  ctx : AioContext
  submitted : List AioOper
  reported : List AioOper

/-- A call of `file_submit_or_wait` -/
structure AioCall where
  oper : AioOper
  answer : SubmitAnswer

def aioCall (backlog : UInt32) (s : AioRun) (call : AioCall) : AioRun where
  ctx := (fileSubmitOrWait backlog call.answer call.oper s.ctx).1
  submitted :=
    if call.answer.malloc = true ∧ call.answer.submit = true then s.submitted ++ [call.oper]
    else s.submitted
  reported :=
    s.reported ++ (call.answer.reported backlog call.oper s.ctx).map AioEvent.oper

def aioDone (cfg : FileConfig) (fsync : ℕ → Bool) (events : List AioEvent) (s : AioRun) :
    AioRun where
  ctx := (fileThreadDone cfg fsync events s.ctx).1
  submitted := s.submitted
  reported := s.reported ++ (doneReported cfg fsync events s.ctx).map AioEvent.oper

/-- Before the first call: `calloc` has cleared the context. -/
def aioStart : AioRun where
  ctx := { nrequests := 0, inFlight := 0, counters := fun _ => 0 }
  submitted := []
  reported := []

/-! ### Buffers -/

/-- A thread of the test: `inFlight` of its context is what the kernel has not reported, and
`performed` the part of it that has taken effect. -/
structure AsyncThread where
  ctx : AioContext
  performed : Multiset AioOper
  buffer : List UInt8
  files : ℕ → List UInt8

/-- The kernel carries out an operation. -/
def AsyncThread.perform (s : AsyncThread) (oper : AioOper) : AsyncThread :=
  let s := { s with performed := oper ::ₘ s.performed }
  match oper.type with
  | .read =>
    let bytes := pread (s.files oper.fileId) oper.pos oper.len
    { s with buffer := bytes ++ s.buffer.drop bytes.length }
  | .write =>
    let file := pwrite 0 (s.files oper.fileId) oper.pos (s.buffer.take oper.len)
    { s with files := Function.update s.files oper.fileId file }
  | _ => s

/-- Some operations, one after the other -/
def AsyncThread.performAll (s : AsyncThread) (opers : List AioOper) : AsyncThread :=
  opers.foldl AsyncThread.perform s

/-- What happens outside while a request is executed: the operations that take effect before the
buffer is filled, before the new one is submitted, before `file_submit_or_wait` returns and
after it, and what the calls return. -/
structure KernelTurn where
  beforeFill : List AioOper
  beforeSubmit : List AioOper
  beforeReturn : List AioOper
  afterReturn : List AioOper
  answer : SubmitAnswer
  fsync : Bool

/-- The two ways in which a request uses the buffer itself. -/
inductive BufferUse where
  | fill
  | validate
  deriving DecidableEq

/-- A use of the buffer, with the thread as it is then. -/
structure BufferEntry where
  use : BufferUse
  request : FileRequest
  thread : AsyncThread

/-- How `file_execute_event` ends; `done` is the return value 0, and a fault is no return. -/
inductive AsyncStatus where
  | done
  | incorrectFileId
  | exceedsFileSize
  | nullRequest
  | writeFailed
  | readFailed
  | validationFailed
  | fsyncFailed
  | fault (e : IoFault)
  deriving DecidableEq

/-- `file_pread` or `file_pwrite` in this mode: whether it returns `count`. -/
def AsyncThread.transfer (s : AsyncThread) (backlog : UInt32) (turn : KernelTurn)
    (oper : AioOper) : AsyncThread × Bool :=
  let reported : Multiset AioOper :=
    (turn.answer.reported backlog oper s.ctx).map AioEvent.oper
  let (ctx, failure) := fileSubmitOrWait backlog turn.answer oper s.ctx
  let s := s.performAll turn.beforeReturn
  let s := { s with ctx := ctx, performed := s.performed - reported }
  -- A failure is the count 0, which a request for nothing takes for its own.
  (s.performAll turn.afterReturn, failure.isNone || oper.len = 0)

section Execute

variable (crc32 : Crc32) (rand : ℕ → UInt8) (g : Globals) (cfg : FileConfig)
  (backlog : UInt32)

/-- The `FILE_OP_TYPE_WRITE` case -/
def asyncWrite (turn : KernelTurn) (s : AsyncThread) (r : FileRequest) :
    AsyncThread × AsyncStatus × List BufferEntry :=
  let s := s.performAll turn.beforeFill
  let log : List BufferEntry := if g.validate then [⟨.fill, r, s⟩] else []
  match fillForWrite crc32 rand g s.buffer (r.size % 2 ^ 32) r.pos with
  | .error e => (s, .fault e, log)
  | .ok buf =>
    let s := { s with buffer := buf }.performAll turn.beforeSubmit
    let (s, ok) := s.transfer backlog turn ⟨.write, r.size, r.fileId, r.pos⟩
    if ok = false then (s, .writeFailed, log)
    else if cfg.fsyncAll then
      if turn.fsync then ({ s with ctx := s.ctx.count .other 1 }, .done, log)
      else (s, .fsyncFailed, log)
    else (s, .done, log)

/-- The end of a read in validation mode -/
def asyncValidate (s : AsyncThread) (r : FileRequest) : AsyncStatus :=
  match fileValidateBuffer crc32 s.buffer (r.size % 2 ^ 32) r.pos with
  | .error e => .fault e
  | .ok .valid => .done
  | .ok _ => .validationFailed

/-- The `FILE_OP_TYPE_READ` case -/
def asyncRead (turn : KernelTurn) (s : AsyncThread) (r : FileRequest) :
    AsyncThread × AsyncStatus × List BufferEntry :=
  let s := (s.performAll turn.beforeFill).performAll turn.beforeSubmit
  let (s, ok) := s.transfer backlog turn ⟨.read, r.size, r.fileId, r.pos⟩
  if ok = false then (s, .readFailed, [])
  else if g.validate then (s, asyncValidate crc32 s r, [⟨.validate, r, s⟩])
  else (s, .done, [])

/-- `file_execute_event` in the asynchronous mode, with the uses it makes of the buffer, those
before a fault included -/
def asyncExecuteEvent (turn : KernelTurn) (s : AsyncThread) (r : FileRequest) :
    AsyncThread × AsyncStatus × List BufferEntry :=
  if r.fileId > cfg.numFiles then (s, .incorrectFileId, [])
  else if r.pos + r.size > cfg.fileSize then (s, .exceedsFileSize, [])
  else if cfg.numFiles ≤ r.fileId then (s, .fault (.filesIndex r.fileId), [])
  else
    match r.operation with
    | .null => (s, .nullRequest, [])
    | .write => asyncWrite crc32 rand g cfg backlog turn s r
    | .read => asyncRead crc32 g backlog turn s r
    | .fsync =>
      if cfg.fsyncAll then (s, .done, [])
      else if turn.fsync then ({ s with ctx := s.ctx.count .other 1 }, .done, [])
      else (s, .fsyncFailed, [])

end Execute

end Sysbench.FileIo
