/-
The statistics counters of `sb_counter.c`.

Each worker thread has a slot with one 64-bit counter for every kind of event, and is
the only one to write it, so its load and store in `sb_counter_add` are one step to
everybody else.  The reporting thread adds the slots up one load at a time, with
increments landing in between, and returns the difference to what it read last time.
There are two such reports, each with a total of its own to compare with.

`CounterEvent` names the steps and `counterRun` replays any interleaving of them.  Beside
the variables of the program the state keeps two things to state properties with: how
much has been added to each counter in all, and the reports made so far.
-/
import Mathlib.Algebra.BigOperators.Fin
import Mathlib.Data.UInt
import Sysbench.Model.DbLayer

namespace Sysbench

open Function

/-- The values of `sb_counter_type_t` below `SB_CNT_MAX`, in order. -/
def SbCounterType.all : List SbCounterType :=
  [.other, .read, .write, .event, .error, .reconnect, .bytesRead, .bytesWritten]

abbrev SbCounters := SbCounterType → UInt64

/-- Which of the two aggregation functions: `sb_counters_agg_intermediate` or
`sb_counters_agg_cumulative`. -/
inductive AggKind where
  | intermediate
  | cumulative
  deriving DecidableEq

/-- The loads of `sb_counters_merge`, in the order of its two loops. -/
def mergeLoads (threads : ℕ) : List (SbCounterType × Fin threads) :=
  SbCounterType.all.flatMap fun t => (List.finRange threads).map fun i => (t, i)

/-- `sb_counters_checkpoint`: what it leaves in `dst` and in `cp`. -/
def sbCountersCheckpoint (dst cp : SbCounters) : SbCounters × SbCounters :=
  (fun t => dst t - cp t, dst)

/-- An aggregation in progress. -/
structure AggCall (threads : ℕ) where
  kind : AggKind
  /-- The array `val` of the caller, which `sb_counters_merge` adds to. -/
  dst : SbCounters
  /-- The loads still to be made. -/
  todo : List (SbCounterType × Fin threads)
  /-- What had been added in all to the counters loaded, at the moment of each load. -/
  seen : SbCounterType → ℕ
  /-- What had been added in all when the call began. -/
  start : SbCounterType → ℕ

/-- A finished aggregation. -/
structure AggReport where
  kind : AggKind
  /-- What the caller got. -/
  val : SbCounters
  /-- The totals read, before the last ones were subtracted. -/
  read : SbCounters
  seen : SbCounterType → ℕ
  start : SbCounterType → ℕ
  /-- What had been added in all when the call returned. -/
  stop : SbCounterType → ℕ

structure CounterState (threads : ℕ) where
  /-- `sb_counters` -/
  slots : Fin threads → SbCounters
  /-- `last_intermediate_counters` and `last_cumulative_counters` -/
  last : AggKind → SbCounters
  call : Option (AggCall threads)
  /-- Newest first. -/
  reports : List AggReport
  /-- What has been added to each counter in all, without wrapping around. -/
  added : Fin threads → SbCounterType → ℕ

inductive CounterEvent (threads : ℕ) where
  /-- `sb_counter_add` by the thread that owns the slot -/
  | add (i : Fin threads) (t : SbCounterType) (val : UInt64)
  /-- The reporting thread calls one of the two functions, which clears `val`. -/
  | call (kind : AggKind)
  /-- The next load of `sb_counters_merge` -/
  | load
  /-- `sb_counters_checkpoint` after the last load, and the return -/
  | finish

/-- All counters are static or cleared at allocation. -/
def counterInit (threads : ℕ) : CounterState threads where
  slots := fun _ _ => 0
  last := fun _ _ => 0
  call := none
  reports := []
  added := fun _ _ => 0

variable {threads : ℕ}

def sbCounterAdd (s : CounterState threads) (i : Fin threads) (t : SbCounterType)
    (val : UInt64) : CounterState threads :=
  { s with
    slots := update s.slots i (update (s.slots i) t (s.slots i t + val))
    added := update s.added i
      (update (s.added i) t (s.added i t + val.toNat)) }

/-- What has been added to `t` by all threads together. -/
def addedInAll (added : Fin threads → SbCounterType → ℕ) (t : SbCounterType) : ℕ :=
  ∑ i, added i t

/-- A call that begins. -/
def AggCall.new (s : CounterState threads) (kind : AggKind) : AggCall threads :=
  ⟨kind, fun _ => 0, mergeLoads threads, fun _ => 0, addedInAll s.added⟩

/-- `dst[t] += sb_counter_val(i, t)` -/
def AggCall.load (c : AggCall threads) (s : CounterState threads) (t : SbCounterType)
    (i : Fin threads) (todo : List (SbCounterType × Fin threads)) : AggCall threads :=
  { c with
    dst := update c.dst t (c.dst t + s.slots i t)
    todo := todo
    seen := update c.seen t (c.seen t + s.added i t) }

/-- One step.  The reporting thread is one thread: it does not start a call inside a call,
and the steps of a call happen only in one. -/
def counterStep (s : CounterState threads) : CounterEvent threads → CounterState threads
  | .add i t val => sbCounterAdd s i t val
  | .call kind =>
    match s.call with
    | some _ => s
    | none => { s with call := some (.new s kind) }
  | .load =>
    match s.call with
    | none => s
    | some c =>
      match c.todo with
      | [] => s
      | (t, i) :: todo => { s with call := some (c.load s t i todo) }
  | .finish =>
    match s.call with
    | none => s
    | some c =>
      match c.todo with
      | _ :: _ => s
      | [] =>
        { s with
          call := none
          last := update s.last c.kind
            (sbCountersCheckpoint c.dst (s.last c.kind)).2
          reports :=
            ⟨c.kind, (sbCountersCheckpoint c.dst (s.last c.kind)).1, c.dst, c.seen, c.start,
              addedInAll s.added⟩ :: s.reports }

/-- Any interleaving of the steps of the workers and of the reporting thread. -/
def counterRun (threads : ℕ) (events : List (CounterEvent threads)) : CounterState threads :=
  events.foldl counterStep (counterInit threads)

/-- The reports of one kind, newest first. -/
def reportsOf (kind : AggKind) (s : CounterState threads) : List AggReport :=
  s.reports.filter (·.kind = kind)

/-! ### Runs without intermediate reports -/

/-- Is the aggregation in progress an intermediate one? -/
def inIntermediate (s : CounterState threads) : Bool :=
  match s.call with
  | none => false
  | some c => c.kind = .intermediate

/-- Is the event a step of an intermediate aggregation?  Increments never are. -/
def ofIntermediate (s : CounterState threads) : CounterEvent threads → Bool
  | .add _ _ _ => false
  | .call kind => kind = .intermediate || inIntermediate s
  | .load => inIntermediate s
  | .finish => inIntermediate s

/-- Is the event an increment? -/
def CounterEvent.isAdd : CounterEvent threads → Bool
  | .add _ _ _ => true
  | _ => false

/-- The events of a run from `s` without the steps of intermediate aggregations. -/
def eraseIntermediate (s : CounterState threads) :
    List (CounterEvent threads) → List (CounterEvent threads)
  | [] => []
  | e :: events =>
    if ofIntermediate s e then eraseIntermediate (counterStep s e) events
    else e :: eraseIntermediate (counterStep s e) events

end Sysbench
