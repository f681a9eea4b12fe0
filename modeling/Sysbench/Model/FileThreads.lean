/-
Random requests of several threads at once.

`file_get_rnd_request` is taken apart into its accesses to what the threads share: each of
`is_dirty`, `req_performed`, `fsynced_file` and the fields of `per_thread` is read or written
in a step of its own, `fsynced_file++` and `req_performed++` in two.  A schedule is a list of
events, each naming the thread that takes its next step; it also carries what that step may
need from outside, the counters of the thread and the position drawn.

The generator never takes `exec_mutex`, it only gives it back, on both ways out.
-/
import Sysbench.Model.FileIo

namespace Sysbench.FileIo

open Function

/-- Where a thread is in `file_get_rnd_request`: what it does next.  The request of a series of
fsyncs is known by its file. -/
inductive RndPhase where
  | idle
  | readDirty (operation : FileOp)
  | readPerformed (operation : FileOp)
  | readFsynced
  /-- `fsynced_file++`, in two steps -/
  | loadFsynced (fileId : ℕ)
  | storeFsynced (fileId value : ℕ)
  | compareFsynced (fileId : ℕ)
  | resetFsynced (fileId : ℕ)
  | resetDirty (fileId : ℕ)
  /-- `retry:` -/
  | draw (operation : FileOp)
  | scanFile (r : FileRequest) (i : ℕ)
  | scanPos (r : FileRequest) (i : ℕ)
  | publishFile (r : FileRequest)
  | publishPos (r : FileRequest)
  /-- `req_performed++`, in two steps -/
  | loadPerformed (r : FileRequest)
  | storePerformed (r : FileRequest) (value : UInt32)
  | setDirty (r : FileRequest)
  /-- `SB_THREAD_MUTEX_UNLOCK(); return sb_req;` -/
  | unlock (r : FileRequest)

/-- A thread takes its next step. -/
structure RndEvent where
  thread : ℕ
  counters : SbCounters
  tmppos : ℕ

structure RndState where
  shared : FileState
  /-- the thread that holds `exec_mutex` -/
  mutex : Option ℕ
  phase : ℕ → RndPhase
  /-- the block of the last data request that a thread has got -/
  owned : ℕ → Option (ℕ × ℕ)
  /-- the unlocks so far, and whether the thread held the mutex -/
  unlocks : List (ℕ × Bool)
  emitted : List (ℕ × FileRequest)

def FileState.setBlock (s : FileState) (thread : ℕ) (block : PerThread) : FileState :=
  { s with perThread := update s.perThread thread block }

/-- A step of a thread up to the unlock.  In the sequential modes `file_next_event` calls the
other generator.  A division by zero ends everything, so the thread does not get on. -/
def rndAdvance (quotient : UInt64 → UInt64 → ℚ) (g : Globals) (cfg : FileConfig) (e : RndEvent)
    (s : FileState) : RndPhase → FileState × RndPhase
  | .idle =>
    if cfg.testMode.sequential then (s, .idle)
    else (s, .readDirty (rndOperation quotient cfg e.counters))
  | .readDirty operation =>
    if cfg.fsyncFreq ≠ 0 ∧ s.isDirty = true then (s, .readPerformed operation)
    else (s, .draw operation)
  | .readPerformed operation =>
    if s.reqPerformed.toNat % cfg.fsyncFreq = 0 then (s, .readFsynced) else (s, .draw operation)
  | .readFsynced => (s, .loadFsynced s.fsyncedFile)
  | .loadFsynced fileId => (s, .storeFsynced fileId s.fsyncedFile)
  | .storeFsynced fileId value =>
    ({ s with fsyncedFile := (value + 1) % 2 ^ 32 }, .compareFsynced fileId)
  | .compareFsynced fileId =>
    if s.fsyncedFile = cfg.numFiles then (s, .resetFsynced fileId)
    else (s, .unlock (fsyncOf fileId))
  | .resetFsynced fileId => ({ s with fsyncedFile := 0 }, .resetDirty fileId)
  | .resetDirty fileId => ({ s with isDirty := false }, .unlock (fsyncOf fileId))
  | .draw operation =>
    match rndDataRequest cfg operation e.tmppos with
    | .error _ => (s, .draw operation)
    | .ok r => if g.validate then (s, .scanFile r 0) else (s, .publishFile r)
  | .scanFile r i =>
    if g.threads ≤ i then (s, .publishFile r)
    else if i ≠ e.thread ∧ (s.perThread i).bufferFileId = r.fileId then (s, .scanPos r i)
    else (s, .scanFile r (i + 1))
  | .scanPos r i =>
    if (s.perThread i).bufferPos = r.pos then (s, .draw r.operation)
    else (s, .scanFile r (i + 1))
  | .publishFile r =>
    (s.setBlock e.thread ⟨r.fileId, (s.perThread e.thread).bufferPos⟩, .publishPos r)
  | .publishPos r =>
    (s.setBlock e.thread ⟨(s.perThread e.thread).bufferFileId, r.pos⟩, .loadPerformed r)
  | .loadPerformed r => (s, .storePerformed r s.reqPerformed)
  | .storePerformed r value =>
    ({ s with reqPerformed := value + 1 },
      if r.operation = .write then .setDirty r else .unlock r)
  | .setDirty r => ({ s with isDirty := true }, .unlock r)
  | .unlock r => (s, .unlock r)

namespace RndState

/-- A thread goes on. -/
def move (s : RndState) (thread : ℕ) (next : FileState × RndPhase) : RndState :=
  { s with shared := next.1, phase := update s.phase thread next.2 }

/-- A thread gives the mutex back, whether it holds it or not, and returns its request. -/
def unlock (s : RndState) (thread : ℕ) (r : FileRequest) : RndState :=
  { s with
    mutex := none
    phase := update s.phase thread .idle
    owned := if r.IsData then update s.owned thread (some (r.fileId, r.pos)) else s.owned
    unlocks := s.unlocks ++ [(thread, decide (s.mutex = some thread))]
    emitted := s.emitted ++ [(thread, r)] }

end RndState

/-- One step of one thread. -/
def rndStep (quotient : UInt64 → UInt64 → ℚ) (g : Globals) (cfg : FileConfig) (s : RndState)
    (e : RndEvent) : RndState :=
  match s.phase e.thread with
  | .unlock r => s.unlock e.thread r
  | phase => s.move e.thread (rndAdvance quotient g cfg e s.shared phase)

/-- Before the first call. -/
def rndStart (perThread : ℕ → PerThread) : RndState where
  shared := initVars perThread
  mutex := none
  phase := fun _ => .idle
  owned := fun _ => none
  unlocks := []
  emitted := []

/-! ### One thread among the others -/

/-- A thread of a random test: where it is, its counters, and how many of its reads and writes have
been executed. -/
structure RwThread where
  phase : RndPhase
  counters : SbCounters
  reads : ℕ
  writes : ℕ

/-- What a thread finds when it takes a step, however the others have left it, and the random
numbers it draws. -/
structure RwTurn where
  shared : FileState
  io : IoState
  tmppos : ℕ
  rand : ℕ → UInt8

/-- The quotient that decides between a read and a write, in exact arithmetic. -/
def exactQuotient (reads writes : UInt64) : ℚ :=
  (reads.toNat + 1) / (writes.toNat + 1)

/-- A step of the thread's loop: one of the generator, or the execution of what it returned. -/
def rwStep (crc32 : Crc32) (g : Globals) (cfg : FileConfig) (thread : ℕ)
    (t : RwThread) (turn : RwTurn) : Except IoFault (RwThread × Option EventStatus) :=
  match t.phase with
  | .unlock r => do
    let (io, status) ← fileExecuteEvent crc32 turn.rand g cfg
      { turn.io with counters := update turn.io.counters thread t.counters } thread r
    pure ({
      phase := .idle
      counters := io.counters thread
      reads := if status = .done ∧ r.operation = .read then t.reads + 1 else t.reads
      writes := if status = .done ∧ r.operation = .write then t.writes + 1 else t.writes },
      some status)
  | phase =>
    .ok ({ t with
      phase :=
        (rndAdvance exactQuotient g cfg ⟨thread, t.counters, turn.tmppos⟩ turn.shared phase).2 },
      none)

/-- Before its first request. -/
def rwStart : RwThread where
  phase := .idle
  counters := fun _ => 0
  reads := 0
  writes := 0

end Sysbench.FileIo
