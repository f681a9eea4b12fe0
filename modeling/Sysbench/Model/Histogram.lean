/-
The latency histogram of `sb_histogram.c`.

Events are counted into 128 intermediate arrays, the slots, with one atomic
increment each and without taking the lock.  The reporting functions take the write
lock, empty the slots cell by cell with an atomic fetch-and-store, and add what they
fetched to `cumulative_array`: `sb_histogram_get_pct_intermediate` by way of
`temp_array`, the others directly through `merge_intermediate_into_cumulative`.

The functions are given twice.  First as the source runs them when nothing else
happens, one Lean function each.  Then as `histStep`, a machine that executes one
fetch-and-store at a time, so that increments can fall between any two of them;
`Proofs/Histogram.lean` shows the two agree.

A latency value enters only through the bucket index computed from it, and a
percentile leaves only as the bucket index it is read off from, so the logarithms
and the four `range_` fields that convert between the two are left out.
-/
import Mathlib.Data.Rat.Floor
import Mathlib.Data.UInt

namespace Sysbench

open Function

/-- `SB_HISTOGRAM_NSLOTS`. -/
def histogramNslots : ℕ := 128

instance : NeZero histogramNslots := ⟨by decide⟩

/-- `sb_histogram_t`, for histograms of `size` buckets. -/
structure Histogram (size : ℕ) where
  cumulativeArray : Fin size → UInt64
  cumulativeNevents : UInt64
  tempArray : Fin size → UInt64
  intermSlots : Fin histogramNslots → Fin size → UInt64
  /-- Is the rwlock held for writing? -/
  lock : Bool

namespace Histogram

variable {size : ℕ}

/-- `sb_histogram_init` on zeroed memory, which the global `sb_latency_histogram` is: the
arrays come zeroed from `calloc`, `cumulative_nevents` is left as it was. -/
def init (size : ℕ) : Histogram size where
  cumulativeArray := fun _ => 0
  cumulativeNevents := 0
  tempArray := fun _ => 0
  intermSlots := fun _ _ => 0
  lock := false

/-- Store `v` into one cell of the slots. -/
def setSlot (h : Histogram size) (s : Fin histogramNslots) (i : Fin size) (v : UInt64) :
    Histogram size :=
  { h with intermSlots := update h.intermSlots s (update (h.intermSlots s) i v) }

/-- The index `sb_histogram_update` computes, clamped to the array. -/
def clampIndex (size : ℕ) [NeZero size] (i : ℤ) : Fin size :=
  if i < 0 then 0
  else if h : i.toNat < size then ⟨i.toNat, h⟩
  else ⟨size - 1, Nat.sub_lt (NeZero.pos size) Nat.one_pos⟩

/-- The atomic increment that ends `sb_histogram_update`. -/
def increment (h : Histogram size) (slot : Fin histogramNslots) (i : Fin size) : Histogram size :=
  h.setSlot slot i (h.intermSlots slot i + 1)

/-- `sb_histogram_update` with a random draw and the unclamped index of a value. -/
def sbHistogramUpdate [NeZero size] (h : Histogram size) (draw : UInt64) (i : ℤ) : Histogram size :=
  h.increment ⟨draw.toNat % histogramNslots, Nat.mod_lt _ (by decide)⟩ (clampIndex size i)

/-! ### Draining the slots -/

/-- The array a merge adds the fetched counts to. -/
inductive Target where
  | temp
  | cumulative
  deriving DecidableEq

/-- `array[i] += t` -/
def addTo (h : Histogram size) (target : Target) (i : Fin size) (t : UInt64) : Histogram size :=
  match target with
  | .temp => { h with tempArray := update h.tempArray i (h.tempArray i + t) }
  | .cumulative =>
    { h with cumulativeArray := update h.cumulativeArray i (h.cumulativeArray i + t) }

/-- One round of the merging loops: fetch a cell, leaving 0, and add it on. -/
def drainCell (target : Target) (s : Fin histogramNslots) (acc : Histogram size × UInt64)
    (i : Fin size) : Histogram size × UInt64 :=
  let t := acc.1.intermSlots s i
  ((acc.1.setSlot s i 0).addTo target i t, acc.2 + t)

/-- The inner loop, over the buckets of one slot. -/
def drainSlot (target : Target) (acc : Histogram size × UInt64) (s : Fin histogramNslots) :
    Histogram size × UInt64 :=
  (List.finRange size).foldl (drainCell target s) acc

/-- One round of the first loop of `sb_histogram_get_pct_intermediate`, which starts
`temp_array` off with slot 0 instead of adding to it. -/
def firstCell (acc : Histogram size × UInt64) (i : Fin size) : Histogram size × UInt64 :=
  let t := acc.1.intermSlots 0 i
  ({ acc.1.setSlot 0 i 0 with tempArray := update acc.1.tempArray i t }, acc.2 + t)

/-! ### Percentiles -/

/-- `floor(nevents * percentile / 100 + 0.5)`, in exact arithmetic. -/
def pctRank (nevents : UInt64) (percentile : ℚ) : ℕ :=
  ⌊(nevents.toNat : ℚ) * percentile / 100 + 1 / 2⌋.toNat

/-- The scan for the first bucket at which `ncur` reaches `nmax`; past the end if none. -/
def pctScan (nmax : ℕ) : UInt64 → ℕ → List UInt64 → ℕ
  | _, i, [] => i
  | ncur, i, a :: rest =>
    if nmax ≤ (ncur + a).toNat then i else pctScan nmax (ncur + a) (i + 1) rest

def pctIndex (array : Fin size → UInt64) (nevents : UInt64) (percentile : ℚ) : ℕ :=
  pctScan (pctRank nevents percentile) 0 0 ((List.finRange size).map array)

/-- `get_pct_cumulative`, up to the conversion of the index to a latency. -/
def getPctCumulative (h : Histogram size) (percentile : ℚ) : ℕ :=
  pctIndex h.cumulativeArray h.cumulativeNevents percentile

/-! ### The code behind the loops

What each reporting function does once its slots are drained, with `nevents` the
count the loops accumulated.  All of it runs under the lock.
-/

/-- The end of `sb_histogram_get_pct_intermediate`. -/
def finishIntermediate (h : Histogram size) (nevents : UInt64) : Histogram size :=
  { h with
    cumulativeArray := fun i => h.cumulativeArray i + h.tempArray i
    cumulativeNevents := h.cumulativeNevents + nevents
    lock := false }

/-- The end of `merge_intermediate_into_cumulative`. -/
def finishMerge (h : Histogram size) (nevents : UInt64) : Histogram size :=
  { h with cumulativeNevents := nevents }

/-- `pthread_rwlock_unlock`. -/
def unlock (h : Histogram size) : Histogram size := { h with lock := false }

/-- The `memset` and the reset of the total in `sb_histogram_get_pct_checkpoint`. -/
def resetCumulative (h : Histogram size) : Histogram size :=
  { h with cumulativeArray := fun _ => 0, cumulativeNevents := 0 }

/-- The largest bucket count. -/
def maxcnt (h : Histogram size) : UInt64 :=
  (List.finRange size).foldl
    (fun m i => if h.cumulativeArray i > m then h.cumulativeArray i else m) 0

/-- One line `sb_histogram_print` prints: the bucket, the width of its bar, its count. -/
structure PrintLine where
  bucket : ℕ
  width : ℕ
  count : UInt64
  deriving DecidableEq

/-- The lines printed for a histogram whose largest count is `max`. -/
def printLines (h : Histogram size) (max : UInt64) : List PrintLine :=
  (List.finRange size).filterMap fun i =>
    let c := h.cumulativeArray i
    if c = 0 then none
    else some ⟨i, ⌊(c.toNat : ℚ) * 40 / max.toNat + 1 / 2⌋.toNat, c⟩

/-- The end of `sb_histogram_print`.  With nothing to print the function returns at
once, and the lock it took at the start is still held. -/
def finishPrint (h : Histogram size) : List PrintLine × Histogram size :=
  if h.maxcnt = 0 then ([], h) else (h.printLines h.maxcnt, h.unlock)

/-! ### The reporting functions

`none` stands for a call that waits for the write lock.
-/

def mergeIntermediateIntoCumulative (h : Histogram size) : Histogram size :=
  let (h', nevents) := (List.finRange histogramNslots).foldl (drainSlot .cumulative)
    (h, h.cumulativeNevents)
  h'.finishMerge nevents

/-- `pthread_rwlock_wrlock`. -/
def wrlock (h : Histogram size) : Option (Histogram size) :=
  if h.lock then none else some { h with lock := true }

def sbHistogramGetPctIntermediate (h : Histogram size) (percentile : ℚ) :
    Option (ℕ × Histogram size) := do
  let h ← h.wrlock
  let acc := (List.finRange size).foldl firstCell (h, 0)
  let (h, nevents) := ((List.finRange histogramNslots).drop 1).foldl (drainSlot .temp) acc
  pure (pctIndex h.tempArray nevents percentile, h.finishIntermediate nevents)

def sbHistogramGetPctCumulative (h : Histogram size) (percentile : ℚ) :
    Option (ℕ × Histogram size) := do
  let h ← h.wrlock
  let h := h.mergeIntermediateIntoCumulative
  pure (h.getPctCumulative percentile, h.unlock)

def sbHistogramGetPctCheckpoint (h : Histogram size) (percentile : ℚ) :
    Option (ℕ × Histogram size) := do
  let h ← h.wrlock
  let h := h.mergeIntermediateIntoCumulative
  pure (h.getPctCumulative percentile, h.resetCumulative.unlock)

def sbHistogramPrint (h : Histogram size) : Option (List PrintLine × Histogram size) := do
  let h ← h.wrlock
  pure h.mergeIntermediateIntoCumulative.finishPrint

end Histogram

/-- A reporting function with its argument. -/
inductive HistOp where
  | getPctIntermediate (percentile : ℚ)
  | getPctCumulative (percentile : ℚ)
  | getPctCheckpoint (percentile : ℚ)
  | print

/-- A call on a histogram. -/
inductive HistCall (size : ℕ) where
  | update (slot : Fin histogramNslots) (i : Fin size)
  | report (op : HistOp)

/-- Run a reporting function and keep the histogram it leaves. -/
def HistOp.exec {size : ℕ} (h : Histogram size) : HistOp → Option (Histogram size)
  | .getPctIntermediate p => (h.sbHistogramGetPctIntermediate p).map (·.2)
  | .getPctCumulative p => (h.sbHistogramGetPctCumulative p).map (·.2)
  | .getPctCheckpoint p => (h.sbHistogramGetPctCheckpoint p).map (·.2)
  | .print => h.sbHistogramPrint.map (·.2)

/-- Run one call to its return. -/
def HistCall.exec {size : ℕ} (h : Histogram size) : HistCall size → Option (Histogram size)
  | .update slot i => some (h.increment slot i)
  | .report op => op.exec h

/-! ### One fetch-and-store at a time -/

/-- Which array a reporting function drains into. -/
def HistOp.target : HistOp → Histogram.Target
  | .getPctIntermediate _ => .temp
  | _ => .cumulative

/-- Where the reporting function that holds the lock has got to. -/
inductive HistPhase where
  | idle
  /-- in the first loop of `sb_histogram_get_pct_intermediate` -/
  | firstSlot (percentile : ℚ) (i : ℕ) (nevents : UInt64)
  /-- in a merging loop, at slot `s` and bucket `i` -/
  | drain (op : HistOp) (s i : ℕ) (nevents : UInt64)

/-- The histogram, the reporting function in progress, and two running accounts:
how many updates each bucket ever got, and how many checkpoints took out of it. -/
structure HistMachine (size : ℕ) where
  hist : Histogram size
  phase : HistPhase
  updates : Fin size → ℕ
  resets : Fin size → ℕ

def HistMachine.init (size : ℕ) : HistMachine size where
  hist := Histogram.init size
  phase := .idle
  updates := fun _ => 0
  resets := fun _ => 0

inductive HistEvent (size : ℕ) where
  /-- an atomic increment, by any thread -/
  | update (slot : Fin histogramNslots) (i : Fin size)
  /-- a thread asks for the write lock -/
  | start (op : HistOp)
  /-- the lock holder goes on to its next fetch-and-store -/
  | tick

/-- What a reporting function does after its last fetch-and-store. -/
def HistMachine.finish {size : ℕ} (m : HistMachine size) (op : HistOp) (nevents : UInt64) :
    HistMachine size :=
  let h := m.hist
  match op with
  | .getPctIntermediate _ => { m with hist := h.finishIntermediate nevents, phase := .idle }
  | .getPctCumulative _ => { m with hist := (h.finishMerge nevents).unlock, phase := .idle }
  | .getPctCheckpoint _ =>
    { m with
      hist := (h.finishMerge nevents).resetCumulative.unlock
      phase := .idle
      resets := fun i => m.resets i + (h.cumulativeArray i).toNat }
  | .print => { m with hist := (h.finishMerge nevents).finishPrint.2, phase := .idle }

/-- One step of the lock holder. -/
def HistMachine.tick {size : ℕ} (m : HistMachine size) : HistMachine size :=
  match m.phase with
  | .idle => m
  | .firstSlot p i nevents =>
    if hi : i < size then
      let (h, nevents) := Histogram.firstCell (m.hist, nevents) ⟨i, hi⟩
      { m with hist := h, phase := .firstSlot p (i + 1) nevents }
    else { m with phase := .drain (.getPctIntermediate p) 1 0 nevents }
  | .drain op s i nevents =>
    if hs : s < histogramNslots then
      if hi : i < size then
        let (h, nevents) := Histogram.drainCell op.target ⟨s, hs⟩ (m.hist, nevents) ⟨i, hi⟩
        { m with hist := h, phase := .drain op s (i + 1) nevents }
      else { m with phase := .drain op (s + 1) 0 nevents }
    else m.finish op nevents

/-- The state in which a reporting function begins, once it has the lock. -/
def HistMachine.begin {size : ℕ} (m : HistMachine size) (h : Histogram size) :
    HistOp → HistMachine size
  | .getPctIntermediate p => { m with hist := h, phase := .firstSlot p 0 0 }
  | op => { m with hist := h, phase := .drain op 0 0 h.cumulativeNevents }

/-- One event.  A thread that cannot have the lock waits, which changes nothing. -/
def histStep {size : ℕ} (m : HistMachine size) : HistEvent size → HistMachine size
  | .update slot i =>
    { m with
      hist := m.hist.increment slot i
      updates := update m.updates i (m.updates i + 1) }
  | .start op =>
    match m.hist.wrlock with
    | none => m
    | some h => m.begin h op
  | .tick => m.tick

/-- Any interleaving, from a zeroed histogram. -/
def histRun {size : ℕ} (events : List (HistEvent size)) : HistMachine size :=
  events.foldl histStep (HistMachine.init size)

end Sysbench
