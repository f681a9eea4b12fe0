/-
The report threads of `sysbench.c`, behind `report_barrier`.

The readings of `sb_exec_timer` are arguments: how long a pause and a report took shows only
in the reading that follows.
-/
import Sysbench.Model.Init

namespace Sysbench.ReportThreads

open Init

/-! ### Intermediate reports -/

/-- The variables of `report_thread_proc`, `curr_ns` being the last reading -/
structure ReportThread where
  pauseNs : UInt64
  prevNs : UInt64
  currNs : UInt64

/-- Before the first pause, with the reading that `prev_ns` is made of -/
def ReportThread.start (reportInterval : UInt32) (currNs : UInt64) : ReportThread where
  pauseNs := sec2ns reportInterval.toNat
  prevNs := currNs + sec2ns reportInterval.toNat
  currNs := currNs

/-- The loop over the deadlines: `next_ns`, if it ends in time -/
def deadlineLoop (intervalNs currNs : UInt64) : (fuel : ℕ) → (prevNs : UInt64) → Option UInt64
  | 0, _ => none
  | fuel + 1, prevNs =>
    let nextNs := prevNs + intervalNs
    if currNs ≥ nextNs then deadlineLoop intervalNs currNs fuel nextNs else some nextNs

/-- What `report_thread_proc` does behind a report, with the reading it begins with: the
variables it goes to sleep with, and `next_ns` -/
def reportRound (fuel : ℕ) (reportInterval : UInt32) (s : ReportThread) (currNs : UInt64) :
    Except Unit (ReportThread × UInt64) :=
  match deadlineLoop (sec2ns reportInterval.toNat) currNs fuel s.prevNs with
  | none => .error ()
  | some nextNs =>
    .ok ({ pauseNs := nextNs - currNs, prevNs := nextNs, currNs := currNs }, nextNs)

/-! ### Checkpoints -/

/-- The readings for a checkpoint: before the pause, and behind it if there is one -/
structure Readings where
  currNs : UInt64
  wokenNs : UInt64

/-- `checkpoints_thread_proc`: the checkpoints it reports, with the time stamps.  The readings
end where the thread is cancelled. -/
def checkpointsThreadProc : List UInt32 → List Readings → List (UInt32 × UInt64)
  | checkpoint :: checkpoints, r :: readings =>
    if sec2ns checkpoint.toNat ≤ r.currNs then checkpointsThreadProc checkpoints readings
    else (checkpoint, r.wokenNs) :: checkpointsThreadProc checkpoints readings
  | _, _ => []

end Sysbench.ReportThreads
