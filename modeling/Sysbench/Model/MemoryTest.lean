/-
The memory test of `sb_memory.c`: what `memory_init` accepts, which words of a thread's
buffer an event accesses, and how many events `memory_next_event` grants.

A position is counted in words of `size_t` from the start of the buffer.  The loops of the
sequential events run over pointers up to `buf + max_offset`, those of the random ones over a
counter; what `sb_rand_default` returns is an argument.  `ssize_t` is as wide as `size_t`,
and the platform says how wide that is.
-/
import Mathlib.Data.UInt
import Mathlib.Data.Nat.Bitwise

namespace Sysbench.MemoryTest

/-! ### Options -/

/-- `SB_MEM_SCOPE_GLOBAL` and `SB_MEM_SCOPE_LOCAL` -/
inductive MemScope where
  | global
  | local
  deriving DecidableEq

/-- `SB_MEM_OP_NONE`, `SB_MEM_OP_READ` and `SB_MEM_OP_WRITE` -/
inductive MemOper where
  | none
  | read
  | write
  deriving DecidableEq

/-- What the system is like. -/
structure Platform where
  /-- `SIZEOF_SIZE_T`; the source does not compile for another size. -/
  wordSize : ℕ
  wordSize_eq : wordSize = 4 ∨ wordSize = 8
  /-- `HAVE_LARGE_PAGES` -/
  largePages : Bool
  /-- whether `sb_memalign` and `hugetlb_alloc` find room for a buffer, call by call -/
  memalign : ℕ → ℕ → Bool
  hugetlbAlloc : ℕ → ℕ → Bool
  /-- the sizes that `malloc` finds room for -/
  malloc : ℕ → Bool

/-- The values of `memory_args` as the getters return them; a string may be NULL. -/
structure MemoryOptions where
  memoryBlockSize : UInt64
  memoryBlockSizeText : Option String
  memoryTotalSize : UInt64
  memoryScope : Option String
  memoryHugetlb : Bool
  memoryOper : Option String
  memoryAccessMode : Option String

/-- The static variables that `memory_init` sets. -/
structure MemoryConfig where
  memoryBlockSize : ℕ
  maxOffset : ℕ
  memoryTotalSize : ℤ
  memoryScope : MemScope
  memoryHugetlb : Bool
  memoryOper : MemOper
  memoryAccessRnd : Bool
  /-- the start value of every element of `thread_counters` -/
  threadCounter : UInt64
  deriving DecidableEq

/-- How `memory_init` fails. -/
inductive InitFailure where
  /-- It prints a message and returns 1. -/
  | rejected (message : String)
  /-- `strcmp` is called with a NULL pointer. -/
  | nullString
  deriving DecidableEq

/-- One of the words that an option can be, or the end with a message. -/
def oneOf {α : Type} (option : String) (words : List (String × α)) :
    Option String → Except InitFailure α
  | none => .error .nullString
  | some s =>
    match words.lookup s with
    | some a => .ok a
    | none => .error (.rejected ("Invalid value for " ++ option ++ ": " ++ s))

def rejectIf (c : Prop) [Decidable c] (message : String) : Except InitFailure Unit :=
  if c then .error (.rejected message) else .ok ()

def largePageSize : ℕ := 4 * 1024 * 1024

/-- The size that `hugetlb_alloc` requests from `shmget` -/
def hugetlbRequest (p : Platform) (size : ℕ) : ℕ :=
  let page := BitVec.ofNat (8 * p.wordSize) largePageSize
  (((BitVec.ofNat (8 * p.wordSize) size - 1) &&& ~~~page) + page).toNat

/-- Whether there is room for the next buffer, after `call` others. -/
def Platform.allocates (p : Platform) (o : MemoryOptions) (size call : ℕ) : Bool :=
  if p.largePages && o.memoryHugetlb then p.hugetlbAlloc call size else p.memalign call size

/-- The loop that gives every thread a buffer of its own, from thread `i` on. -/
def threadBuffers (p : Platform) (o : MemoryOptions) (size : ℕ) : ℕ → ℕ → Except InitFailure Unit
  | 0, _ => .ok ()
  | n + 1, i =>
    if p.allocates o size i then threadBuffers p o size n (i + 1)
    else .error (.rejected ("Failed to allocate buffer for thread #" ++ toString i ++ "!"))

/-- `memory_init`, for a number of threads -/
def memoryInit (p : Platform) (threads : ℕ) (o : MemoryOptions) :
    Except InitFailure MemoryConfig := do
  let blockSize := (o.memoryBlockSize.toNat : ℤ).bmod (2 ^ (8 * p.wordSize))
  rejectIf (blockSize < p.wordSize ∨ blockSize.toNat &&& (blockSize.toNat - 1) ≠ 0)
    ("Invalid value for memory-block-size: " ++ o.memoryBlockSizeText.getD "(null)")
  let totalSize := (o.memoryTotalSize.toNat : ℤ).bmod (2 ^ 64)
  let scope ← oneOf "memory-scope" [("global", MemScope.global), ("local", .local)] o.memoryScope
  let oper ← oneOf "memory-oper" [("write", MemOper.write), ("read", .read), ("none", .none)]
    o.memoryOper
  let rnd ← oneOf "memory-access-mode" [("seq", false), ("rnd", true)] o.memoryAccessMode
  rejectIf (scope = .global ∧ p.allocates o blockSize.toNat 0 = false) "Failed to allocate buffer!"
  rejectIf (p.malloc (threads * 8) = false ∨ p.malloc (threads * p.wordSize) = false)
    "Failed to allocate thread-local memory!"
  threadBuffers p o blockSize.toNat (if scope = .local then threads else 0) 0
  pure {
    memoryBlockSize := blockSize.toNat
    maxOffset := blockSize.toNat / p.wordSize - 1
    memoryTotalSize := totalSize
    memoryScope := scope
    memoryHugetlb := p.largePages && o.memoryHugetlb
    memoryOper := oper
    memoryAccessRnd := rnd
    threadCounter := UInt64.ofInt ((totalSize.tdiv blockSize).tdiv threads) }

/-! ### Events -/

/-- What happens at a word of the buffer. -/
inductive Access where
  /-- The word is passed over, or its position computed. -/
  | pass (word : ℕ)
  /-- `SIZE_T_LOAD` -/
  | load (word : ℕ)
  /-- `SIZE_T_STORE` -/
  | store (word value : ℕ)
  deriving DecidableEq

/-- `for (; buf < end; buf++)` -/
def whileBelow (stop : ℕ) (buf : ℕ) : List ℕ :=
  if buf < stop then buf :: whileBelow stop (buf + 1) else []
termination_by stop - buf

/-- `for (; buf <= end; buf++)` -/
def whileUpTo (stop : ℕ) (buf : ℕ) : List ℕ :=
  if buf ≤ stop then buf :: whileUpTo stop (buf + 1) else []
termination_by stop + 1 - buf

/-- `event_rnd_none`.  `rand` is what the calls of `sb_rand_default` return. -/
def eventRndNone (rand : ℕ → ℕ) (cfg : MemoryConfig) : List Access :=
  (whileUpTo cfg.maxOffset 0).map fun i => .pass (rand i)

def eventRndRead (rand : ℕ → ℕ) (cfg : MemoryConfig) : List Access :=
  (whileUpTo cfg.maxOffset 0).map fun i => .load (rand i)

def eventRndWrite (rand : ℕ → ℕ) (cfg : MemoryConfig) : List Access :=
  (whileUpTo cfg.maxOffset 0).map fun i => .store (rand i) i

def eventSeqNone (cfg : MemoryConfig) : List Access :=
  (whileUpTo cfg.maxOffset 0).map .pass

def eventSeqRead (cfg : MemoryConfig) : List Access :=
  (whileBelow cfg.maxOffset 0).map .load

def eventSeqWrite (cfg : MemoryConfig) (tid : ℕ) : List Access :=
  (whileBelow cfg.maxOffset 0).map fun buf => .store buf tid

/-- `execute_event`, as `memory_init` sets it -/
def executeEvent (cfg : MemoryConfig) (rand : ℕ → ℕ) (tid : ℕ) : List Access :=
  match cfg.memoryOper with
  | .none => if cfg.memoryAccessRnd then eventRndNone rand cfg else eventSeqNone cfg
  | .read => if cfg.memoryAccessRnd then eventRndRead rand cfg else eventSeqRead cfg
  | .write => if cfg.memoryAccessRnd then eventRndWrite rand cfg else eventSeqWrite cfg tid

/-- Several events of a thread, with the numbers that each of them draws. -/
def executeEvents (cfg : MemoryConfig) (tid : ℕ) (rands : List (ℕ → ℕ)) : List Access :=
  rands.flatMap fun rand => executeEvent cfg rand tid

/-- `stat->events * memory_block_size`, the volume that `memory_report_cumulative` prints in
MiB -/
def reportedBytes (cfg : MemoryConfig) (events : ℕ) : ℕ :=
  events * cfg.memoryBlockSize

/-! ### The number of events -/

/-- `thread_counters`, how many events each thread has been granted, and which threads have got a
null event. -/
structure MemoryThreads (threads : ℕ) where
  counters : Fin threads → UInt64
  granted : Fin threads → ℕ
  stopped : Fin threads → Bool

/-- As `memory_init` leaves them. -/
def memoryStart (cfg : MemoryConfig) (threads : ℕ) : MemoryThreads threads where
  counters := fun _ => cfg.threadCounter
  granted := fun _ => 0
  stopped := fun _ => false

/-- `memory_next_event`: the counters behind the call, and whether it grants an event.  The counter
goes down whatever it shows, but only if there is a limit. -/
def memoryNextEvent {threads : ℕ} (cfg : MemoryConfig) (counters : Fin threads → UInt64)
    (tid : Fin threads) : (Fin threads → UInt64) × Bool :=
  if 0 < cfg.memoryTotalSize then
    (Function.update counters tid (counters tid - 1), counters tid != 0)
  else (counters, true)

/-- One round of `thread_run`: a thread that has got a null event makes no more calls. -/
def memoryTurn {threads : ℕ} (cfg : MemoryConfig) (s : MemoryThreads threads)
    (tid : Fin threads) : MemoryThreads threads :=
  if s.stopped tid then s
  else
    let (counters, event) := memoryNextEvent cfg s.counters tid
    if event then
      { s with counters := counters, granted := Function.update s.granted tid (s.granted tid + 1) }
    else { s with counters := counters, stopped := Function.update s.stopped tid true }

/-- Some rounds, each by the thread named -/
def memoryRun (cfg : MemoryConfig) (threads : ℕ) (turns : List (Fin threads)) :
    MemoryThreads threads :=
  turns.foldl (memoryTurn cfg) (memoryStart cfg threads)

end Sysbench.MemoryTest
