/-
The event timers of `sb_timer.c`.

Every worker thread owns one timer: it starts it when an event begins and stops it
when the event ends, which adds the elapsed time to the statistics kept in the timer.
The reporting code takes a copy and resets the statistics in one go, and merges the
timers of all threads.  Each of these operations holds the spinlock of its timer from
beginning to end, and the store of a queue time is a single one, so an interleaving of
threads is a sequence of whole operations: `TimerOp` names them and `timerRun` replays
any sequence.
-/
import Mathlib.Data.UInt

namespace Sysbench

open Function

/-- `struct timespec`. -/
structure Timespec where
  tvSec : Int64
  tvNsec : Int64
  deriving DecidableEq

/-- `TIMESPEC_DIFF`, with `SEC2NS` spelled out. -/
def timespecDiff (a b : Timespec) : UInt64 :=
  (a.tvSec - b.tvSec).toUInt64 * 1000000000 + (a.tvNsec - b.tvNsec).toUInt64

/-- `sb_timer_t` without its lock and its padding. -/
structure SbTimer where
  timeStart : Timespec
  timeEnd : Timespec
  events : UInt64
  queueTime : UInt64
  minTime : UInt64
  maxTime : UInt64
  sumTime : UInt64
  deriving DecidableEq

def uint64Max : UInt64 := 18446744073709551615

def sbTimerReset (t : SbTimer) : SbTimer :=
  { t with minTime := uint64Max, maxTime := 0, sumTime := 0, events := 0, queueTime := 0 }

def sbTimerInit : SbTimer :=
  sbTimerReset
    { timeStart := ⟨0, 0⟩, timeEnd := ⟨0, 0⟩, events := 0, queueTime := 0, minTime := 0,
      maxTime := 0, sumTime := 0 }

/-- `sb_timer_start`, where `SB_GETTIME` reads `now`. -/
def sbTimerStart (t : SbTimer) (now : Timespec) : SbTimer :=
  { t with timeStart := now }

/-- The local `elapsed` of `sb_timer_stop`. -/
def sbTimerElapsed (t : SbTimer) (now : Timespec) : UInt64 :=
  timespecDiff now t.timeStart + t.queueTime

/-- `sb_timer_stop`: the elapsed time it returns and the timer it leaves. -/
def sbTimerStop (t : SbTimer) (now : Timespec) : UInt64 × SbTimer :=
  let elapsed := sbTimerElapsed t now
  (elapsed,
    { t with
      timeEnd := now
      events := t.events + 1
      sumTime := t.sumTime + elapsed
      minTime := if elapsed < t.minTime then elapsed else t.minTime
      maxTime := if elapsed > t.maxTime then elapsed else t.maxTime })

/-- `sb_timer_checkpoint`: the copy it stores in `old`, and the timer it leaves. -/
def sbTimerCheckpoint (t : SbTimer) : SbTimer × SbTimer :=
  (t, sbTimerReset t)

def sbTimerMin (t : SbTimer) : UInt64 :=
  if t.events = 0 then 0 else t.minTime

def sbTimerMax (t : SbTimer) : UInt64 := t.maxTime

def sbTimerMerge (t₁ t₂ : SbTimer) : SbTimer where
  timeStart := ⟨0, 0⟩
  timeEnd := ⟨0, 0⟩
  queueTime := 0
  sumTime := t₁.sumTime + t₂.sumTime
  events := t₁.events + t₂.events
  maxTime := if t₁.maxTime > t₂.maxTime then t₁.maxTime else t₂.maxTime
  minTime := if t₁.minTime < t₂.minTime then t₁.minTime else t₂.minTime

/-- The loop of `report_cumulative`: merge timer after timer into a fresh one. -/
def mergeTimers (timers : List SbTimer) : SbTimer :=
  timers.foldl sbTimerMerge sbTimerInit

def sbTimerRunning (t : SbTimer) : Bool :=
  timespecDiff t.timeStart t.timeEnd > 0

/-- The loop `sb_report_cumulative` runs on a forced shutdown: it counts the copies that are
running and stops them.  Each copy comes with what the clock reads at its turn. -/
def stopUnfinished : List (SbTimer × Timespec) → ℕ × List SbTimer
  | [] => (0, [])
  | (copy, now) :: rest =>
    let (unfinished, copies) := stopUnfinished rest
    if sbTimerRunning copy then (unfinished + 1, (sbTimerStop copy now).2 :: copies)
    else (unfinished, copy :: copies)

/-! ### One timer -/

/-- A call on a timer. -/
inductive TimerCall where
  /-- `sb_timer_init` -/
  | init
  /-- `sb_timer_start` -/
  | start (now : Timespec)
  /-- `sb_timer_stop` -/
  | stop (now : Timespec)
  /-- `sb_timer_checkpoint` -/
  | checkpoint

/-- The timer a call leaves. -/
def timerCall (t : SbTimer) : TimerCall → SbTimer
  | .init => sbTimerInit
  | .start now => sbTimerStart t now
  | .stop now => (sbTimerStop t now).2
  | .checkpoint => (sbTimerCheckpoint t).2

/-- Any sequence of calls, from an initialised timer. -/
def timerCalls (calls : List TimerCall) : SbTimer :=
  calls.foldl timerCall sbTimerInit

/-! ### Threads using their timers -/

/-- An operation on the timer of one thread. -/
inductive TimerOp (T : Type) where
  /-- `sb_timer_start` -/
  | start (t : T) (now : Timespec)
  /-- `sb_more_events` stores how long the event has been queued. -/
  | queue (t : T) (ns : UInt64)
  /-- `sb_timer_stop` -/
  | stop (t : T) (now : Timespec)
  /-- `sb_timer_checkpoint`, called by the reporting thread -/
  | checkpoint (t : T)

/-- What an operation hands to its caller. -/
inductive TimerEntry (T : Type) where
  | recorded (t : T) (elapsed : UInt64)
  | copied (t : T) (old : SbTimer)

/-- The timers, and the record of what has been handed out, newest first. -/
structure TimerState (T : Type) where
  timers : T → SbTimer
  log : List (TimerEntry T)

/-- Every timer is initialised and nothing has been recorded. -/
def timerInit (T : Type) : TimerState T where
  timers := fun _ => sbTimerInit
  log := []

variable {T : Type} [DecidableEq T]

/-- One operation. -/
def timerStep (s : TimerState T) : TimerOp T → TimerState T
  | .start t now =>
    { s with timers := update s.timers t (sbTimerStart (s.timers t) now) }
  | .queue t ns =>
    { s with timers := update s.timers t { s.timers t with queueTime := ns } }
  | .stop t now =>
    { timers := update s.timers t (sbTimerStop (s.timers t) now).2
      log := .recorded t (sbTimerStop (s.timers t) now).1 :: s.log }
  | .checkpoint t =>
    { timers := update s.timers t (sbTimerCheckpoint (s.timers t)).2
      log := .copied t (sbTimerCheckpoint (s.timers t)).1 :: s.log }

/-- Any sequence of operations, from initialised timers. -/
def timerRun (ops : List (TimerOp T)) : TimerState T :=
  ops.foldl timerStep (timerInit T)

/-! ### Reading the record -/

/-- The elapsed values handed out for thread `t`. -/
def recordedBy (t : T) : List (TimerEntry T) → List UInt64
  | [] => []
  | .recorded t' e :: log => if t' = t then e :: recordedBy t log else recordedBy t log
  | .copied _ _ :: log => recordedBy t log

/-- The copies taken of the timer of thread `t`. -/
def copiesOf (t : T) : List (TimerEntry T) → List SbTimer
  | [] => []
  | .recorded _ _ :: log => copiesOf t log
  | .copied t' old :: log => if t' = t then old :: copiesOf t log else copiesOf t log

/-- The values recorded by thread `t` since the last copy of its timer was taken. -/
def liveValues (t : T) : List (TimerEntry T) → List UInt64
  | [] => []
  | .recorded t' e :: log => if t' = t then e :: liveValues t log else liveValues t log
  | .copied t' _ :: log => if t' = t then [] else liveValues t log

/-- For each copy of the timer of thread `t`, the values recorded between the copy before it
and itself. -/
def copiedValues (t : T) : List (TimerEntry T) → List (List UInt64)
  | [] => []
  | .recorded _ _ :: log => copiedValues t log
  | .copied t' _ :: log =>
    if t' = t then liveValues t log :: copiedValues t log else copiedValues t log

/-- All elapsed values handed out, whichever thread they belong to. -/
def allRecorded (log : List (TimerEntry T)) : List UInt64 :=
  log.filterMap fun
    | .recorded _ e => some e
    | .copied _ _ => none

end Sysbench
