/-
`init` of `sysbench.c`: the general options, read from the registry and checked.

It sets a part of `sb_globals` and calls `sb_thread_init` and `sb_rand_init`.  Seconds are
`double`s and are exact rationals here; `strtod`, the allocators and `qsort` are parameters.
The messages that only warn are left out.
-/
import Mathlib.Data.Rat.Floor
import Sysbench.Model.RandRange

namespace Sysbench.Init

open Options

/-- How `init` fails. -/
inductive Failure where
  /-- It prints a message and returns 1. -/
  | rejected (message : String)
  /-- A getter prints a message and exits. -/
  | exits
  /-- Memory is used through a NULL pointer or out of bounds. -/
  | badPointer
  deriving DecidableEq

/-- The failures of `sb_rand_init` -/
def Failure.ofRand : Rand.InitFailure → Failure
  | .rejected message => .rejected message
  | .exits => .exits
  | .nullString => .badPointer

/-- What can be allocated. -/
structure Room where
  /-- So many `sb_thread_ctxt_t`s -/
  threads : UInt32 → Bool
  /-- So many `sb_timer_t`s -/
  timers : UInt32 → Bool

/-- What `init` sets: the fields of `sb_globals`, and static variables of the files. -/
structure InitConfig where
  threads : UInt32
  threadInitTimeout : ℤ
  maxEvents : UInt64
  warmupTime : ℤ
  maxTimeNs : UInt64
  forceShutdown : Bool
  /-- None is the undefined value of a conversion. -/
  timeout : Option UInt32
  threadStackSize : ℤ
  debug : Bool
  validate : Bool
  rand : Rand.RandConfig ℚ
  txRate : UInt32
  reportInterval : UInt32
  checkpoints : List UInt32
  luajitCmd : Option Text

/-- Give up with a message. -/
def rejectIf (c : Prop) [Decidable c] (message : String) : Except Failure Unit :=
  if c then .error (.rejected message) else .ok ()

/-- `sb_get_value_int` -/
def intOption (options : Registry) (name : String) : Except Failure ℤ :=
  (Rand.intOption options name).mapError Failure.ofRand

def sec2ns (sec : ℤ) : UInt64 :=
  UInt64.ofInt sec * 1000000000

def ns2sec (nsec : UInt64) : ℚ :=
  nsec.toNat / 1000000000

/-- What `strtol` returns for a number that may be beyond `long` -/
def clampLong (n : ℤ) : ℤ :=
  max (-2 ^ 63) (min n (2 ^ 63 - 1))

/-- `force_shutdown` and `timeout`, from the value of `forced-shutdown` -/
def forcedShutdown (maxTimeNs : UInt64) : Option Text → Except Failure (Bool × Option UInt32)
  | none => .ok (true, Rand.toUInt32 (ns2sec maxTimeNs / 20))
  | some tmp =>
    if tmp.map Char.toLower = "off".toList then .ok (false, some 0)
    else
      let (n, endptr) := strtol tmp
      let timeout := UInt32.ofInt (clampLong n)
      if endptr.head? = some '%' then
        .ok (true, Rand.toUInt32 (timeout.toNat * ns2sec maxTimeNs / 100))
      else if tmp = [] ∨ endptr ≠ [] then
        .error (.rejected ("Invalid value for --forced-shutdown: '" ++ String.ofList tmp ++ "'"))
      else .ok (true, some timeout)

/-- `max_time_ns`, `force_shutdown` and `timeout`.  Without a time limit the last two keep the
zeros of a static variable. -/
def timeLimit (options : Registry) (warmupTime maxTime : ℤ) :
    Except Failure (UInt64 × Bool × Option UInt32) :=
  if 0 < sec2ns maxTime then do
    let maxTimeNs :=
      if 0 < warmupTime then sec2ns maxTime + sec2ns warmupTime else sec2ns maxTime
    let shutdown ← forcedShutdown maxTimeNs (sbGetValueString options "forced-shutdown".toList)
    pure (maxTimeNs, shutdown)
  else .ok (sec2ns maxTime, false, some 0)

/-- `sb_thread_init`: the stack size, an `int` -/
def sbThreadInit (room : Room) (options : Registry) (threads : UInt32) : Except Failure ℤ := do
  let stackSize :=
    ((sbGetValueSize options "thread-stack-size".toList).toNat : ℤ).bmod (2 ^ 32)
  rejectIf (stackSize ≤ 0)
    ("Invalid value for thread-stack-size: " ++ toString stackSize ++ ".\n")
  rejectIf (room.threads threads = false) "Memory allocation failure.\n"
  pure stackSize

/-- The verbosity that comes with `debug` -/
def debugVerbosity (files : Files) (options : Registry) : Registry :=
  match findOption options "verbosity".toList with
  | none => options
  | some opt => (setOption files options opt.name (some "5".toList) opt.type).1

/-- The size of `checkpoints` -/
def maxCheckpoints : ℕ := 256

/-- The loop over `report-checkpoints`, with those stored so far -/
def readCheckpoints : List UInt32 → List Text → Except Failure (List UInt32)
  | stored, [] => .ok stored
  | stored, val :: vals =>
    let (res, endptr) := strtol val
    if endptr ≠ [] ∨ res < 0 ∨ res > 2 ^ 31 - 1 then
      .error (.rejected
        ("Invalid value for --report-checkpoints: '" ++ String.ofList val ++ "'"))
    else if stored.length + 1 > maxCheckpoints then
      .error (.rejected ("Too many checkpoints in --report-checkpoints (up to "
        ++ toString maxCheckpoints ++ " can be defined)"))
    else readCheckpoints (stored ++ [UInt32.ofInt res]) vals

/-- `checkpoint_cmp`, which returns an `int` -/
def checkpointCmp (a b : UInt32) : ℤ :=
  ((a - b).toNat : ℤ).bmod (2 ^ 32)

/-- The checkpoints in the order of `qsort` -/
def getCheckpoints (qsort : (UInt32 → UInt32 → ℤ) → List UInt32 → List UInt32)
    (options : Registry) : Except Failure (List UInt32) :=
  match sbGetValueList options "report-checkpoints".toList with
  | none => .error .badPointer
  | some vals => (readCheckpoints [] vals).map (qsort checkpointCmp)

/-- The two arrays of timers.  The number of elements is `threads + 1` in 32 bits, what
`sb_memalign` returns goes to `memset` unseen, and as many as there are threads are set up. -/
def initTimers (room : Room) (threads : UInt32) : Except Failure Unit :=
  if threads + 1 = 0 ∨ room.timers (threads + 1) = false then .error .badPointer else .ok ()

/-- `init`, and the options it leaves -/
def init (files : Files) (strtod : Text → ℚ) (room : Room)
    (qsort : (UInt32 → UInt32 → ℤ) → List UInt32 → List UInt32) (options : Registry) :
    Except Failure (InitConfig × Registry) := do
  let threads ← intOption options "threads"
  let threadInitTimeout ← intOption options "thread-init-timeout"
  -- `threads` is unsigned, `%d` shows it as an `int`.
  rejectIf (UInt32.ofInt threads = 0) ("Invalid value for --threads: " ++ toString threads ++ ".\n")
  let events ← intOption options "events"
  let warmupTime ← intOption options "warmup-time"
  rejectIf (warmupTime < 0)
    ("Invalid value for --warmup-time: " ++ toString warmupTime ++ ".\n")
  let maxTime ← intOption options "time"
  let limit ← timeLimit options warmupTime maxTime
  let stackSize ← sbThreadInit room options (UInt32.ofInt threads)
  let debug := sbGetValueFlag options "debug".toList
  let options := if debug then debugVerbosity files options else options
  let rand ← (Rand.sbRandInit strtod options).mapError Failure.ofRand
  let txRate ← intOption options "rate"
  let reportInterval ← intOption options "report-interval"
  let checkpoints ← getCheckpoints qsort options
  initTimers room (UInt32.ofInt threads)
  pure ({
    threads := UInt32.ofInt threads
    threadInitTimeout := threadInitTimeout
    maxEvents := UInt64.ofInt events
    warmupTime := warmupTime
    maxTimeNs := limit.1
    forceShutdown := limit.2.1
    timeout := limit.2.2
    threadStackSize := stackSize
    debug := debug
    validate := sbGetValueFlag options "validate".toList
    rand := rand
    txRate := UInt32.ofInt txRate
    reportInterval := UInt32.ofInt reportInterval
    checkpoints := checkpoints
    luajitCmd := sbGetValueString options "luajit-cmd".toList }, options)

end Sysbench.Init
