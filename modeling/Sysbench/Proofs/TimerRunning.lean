/-
What `sb_timer_running` tells.

The function compares `TIMESPEC_DIFF(time_start, time_end)` with zero.  The difference is
an unsigned number of nanoseconds, so it is positive unless the two times agree modulo
2^64: the order of the times does not matter.  A timer that has only been initialised has
both at zero and is told not to be running; every start and every stop moves one of the
two, and from then on the timer counts as running, a stopped one too.

`timerPhase` is what a sequence of calls has made of the timer, `startOf` and `endOf` the
two readings it keeps, and `TellsRunning` says when the answer is the right one.  On a clock
that stands between 1 ns and 2^64 ns and never reads the same twice, it is so exactly when
the timer has not been stopped last: `Ordered` carries the order of the two readings along
the calls.
-/
import Mathlib.Data.Int.ModEq
import Sysbench.Model.Timer

namespace Sysbench

open List

/-- A time in nanoseconds. -/
def Timespec.ns (t : Timespec) : ℤ := t.tvSec.toInt * 1000000000 + t.tvNsec.toInt

/-- The difference is the true one, reduced to 64 bits. -/
theorem timespecDiff_toBitVec (a b : Timespec) :
    (timespecDiff a b).toBitVec = BitVec.ofInt 64 (a.ns - b.ns) := by
  have hsub : ∀ x y : ℤ, BitVec.ofInt 64 (x - y) = BitVec.ofInt 64 x - BitVec.ofInt 64 y := by
    intro x y
    rw [sub_eq_add_neg, BitVec.ofInt_add, BitVec.ofInt_neg, ← sub_eq_add_neg]
  have hcast : ∀ x : Int64, BitVec.ofInt 64 x.toInt = x.toBitVec := by
    intro x
    rw [← Int64.toInt_toBitVec, BitVec.ofInt_toInt]
  have hns : a.ns - b.ns
      = (a.tvSec.toInt - b.tvSec.toInt) * 1000000000 + (a.tvNsec.toInt - b.tvNsec.toInt) := by
    unfold Timespec.ns
    omega
  rw [hns, BitVec.ofInt_add, BitVec.ofInt_mul, hsub, hsub, hcast, hcast, hcast, hcast]
  rfl

theorem sbTimerRunning_iff (t : SbTimer) :
    sbTimerRunning t = true ↔ ¬ t.timeStart.ns ≡ t.timeEnd.ns [ZMOD 2 ^ 64] := by
  have hpos : sbTimerRunning t = true ↔ (timespecDiff t.timeStart t.timeEnd).toNat ≠ 0 := by
    simp only [sbTimerRunning, decide_eq_true_eq, GT.gt, UInt64.lt_iff_toNat_lt]
    exact Nat.pos_iff_ne_zero
  have hnat : (timespecDiff t.timeStart t.timeEnd).toNat
      = ((t.timeStart.ns - t.timeEnd.ns) % 2 ^ 64).toNat := by
    rw [← UInt64.toNat_toBitVec, timespecDiff_toBitVec, BitVec.toNat_ofInt]
    rfl
  rw [hpos, hnat, Int.modEq_comm, Int.modEq_iff_dvd, Int.dvd_iff_emod_eq_zero]
  omega

/-! ### What the timer remembers of its calls -/

inductive TimerPhase where
  | fresh
  /-- started, and not stopped since -/
  | running
  /-- stopped, and not started since -/
  | stopped
  deriving DecidableEq

def TimerPhase.next : TimerPhase → TimerCall → TimerPhase
  | _, .init => .fresh
  | _, .start _ => .running
  | _, .stop _ => .stopped
  | phase, .checkpoint => phase

/-- The phase of the timer behind a sequence of calls. -/
def timerPhase (calls : List TimerCall) : TimerPhase := calls.foldl TimerPhase.next .fresh

/-- The reading of the last start since the timer was initialised, or zero. -/
def startOf : List TimerCall → Timespec :=
  List.foldl (fun kept call => match call with
    | .init => ⟨0, 0⟩
    | .start now => now
    | _ => kept) ⟨0, 0⟩

/-- The reading of the last stop since the timer was initialised, or zero. -/
def endOf : List TimerCall → Timespec :=
  List.foldl (fun kept call => match call with
    | .init => ⟨0, 0⟩
    | .stop now => now
    | _ => kept) ⟨0, 0⟩

/-- What the clock reads along the calls. -/
def readings (calls : List TimerCall) : List Timespec :=
  calls.filterMap fun
    | .start now | .stop now => some now
    | _ => none

/-- The answer of `sb_timer_running` behind these calls is right. -/
def TellsRunning (calls : List TimerCall) : Prop :=
  match timerPhase calls with
  | .fresh => True
  | .running => ¬ (startOf calls).ns ≡ (endOf calls).ns [ZMOD 2 ^ 64]
  | .stopped => (startOf calls).ns ≡ (endOf calls).ns [ZMOD 2 ^ 64]

theorem timerCalls_times (calls : List TimerCall) :
    (timerCalls calls).timeStart = startOf calls ∧ (timerCalls calls).timeEnd = endOf calls := by
  unfold timerCalls startOf endOf
  induction calls using reverseRecOn with
  | nil => exact ⟨rfl, rfl⟩
  | append_singleton calls call ih =>
    simp only [foldl_append, foldl_cons, foldl_nil]
    cases call with
    | init => exact ⟨rfl, rfl⟩
    | start now => exact ⟨rfl, ih.2⟩
    | stop now => exact ⟨ih.1, rfl⟩
    | checkpoint => exact ih

variable {calls : List TimerCall} {threads : List (List TimerCall × Timespec)}

theorem times_of_fresh (h : timerPhase calls = .fresh) :
    startOf calls = ⟨0, 0⟩ ∧ endOf calls = ⟨0, 0⟩ := by
  unfold timerPhase at h
  unfold startOf endOf
  induction calls using reverseRecOn with
  | nil => exact ⟨rfl, rfl⟩
  | append_singleton calls call ih =>
    simp only [foldl_append, foldl_cons, foldl_nil] at h ⊢
    cases call with
    | init => exact ⟨rfl, rfl⟩
    | start now | stop now => simp [TimerPhase.next] at h
    | checkpoint => exact ih h

/-- The answer behind any sequence of calls, whatever the clock reads. -/
theorem running_eq_iff_tells (calls : List TimerCall) :
    sbTimerRunning (timerCalls calls) = decide (timerPhase calls = .running)
      ↔ TellsRunning calls := by
  have hrun := sbTimerRunning_iff (timerCalls calls)
  rw [(timerCalls_times calls).1, (timerCalls_times calls).2] at hrun
  unfold TellsRunning
  cases hphase : timerPhase calls with
  | fresh =>
    obtain ⟨hstart, hend⟩ := times_of_fresh hphase
    rw [hstart, hend] at hrun
    have hsame : sbTimerRunning (timerCalls calls) = false :=
      Bool.eq_false_iff.mpr fun h => hrun.mp h rfl
    simp [hsame]
  | running => simpa using hrun
  | stopped =>
    rw [← not_iff_not, ← hrun]
    simp

/-! ### On a clock that moves on -/

/-- The readings along the calls increase, and stay between 1 ns and 2^64 ns. -/
structure ClockMovesOn (calls : List TimerCall) : Prop where
  increasing : (readings calls).Pairwise fun r r' => r.ns < r'.ns
  positive : ∀ r ∈ readings calls, 0 < r.ns
  lt : ∀ r ∈ readings calls, r.ns < 2 ^ 64

/-- The two times of the timer are readings of the past or zero, and they stand in the order
in which they were taken. -/
structure Ordered (calls : List TimerCall) : Prop where
  start_mem : startOf calls = ⟨0, 0⟩ ∨ startOf calls ∈ readings calls
  end_mem : endOf calls = ⟨0, 0⟩ ∨ endOf calls ∈ readings calls
  running : timerPhase calls = .running → (endOf calls).ns < (startOf calls).ns
  stopped : timerPhase calls = .stopped → (startOf calls).ns < (endOf calls).ns

theorem ns_zero : (⟨0, 0⟩ : Timespec).ns = 0 := rfl

/-- A time that is zero or an earlier reading lies before the next reading. -/
theorem ClockMovesOn.kept_lt {call : TimerCall} {now kept : Timespec}
    (hclock : ClockMovesOn (calls ++ [call])) (hnow : readings [call] = [now])
    (hkept : kept = ⟨0, 0⟩ ∨ kept ∈ readings calls) : kept.ns < now.ns := by
  have hall : readings (calls ++ [call]) = readings calls ++ [now] := by
    rw [← hnow]
    simp [readings]
  rcases hkept with rfl | hmem
  · rw [ns_zero]
    apply hclock.positive
    simp [hall]
  · have hpair := hclock.increasing
    rw [hall, pairwise_append] at hpair
    exact hpair.2.2 kept hmem now (by simp)

theorem ClockMovesOn.init {call : TimerCall} (hclock : ClockMovesOn (calls ++ [call])) :
    ClockMovesOn calls := by
  have hall : readings (calls ++ [call]) = readings calls ++ readings [call] := by simp [readings]
  constructor
  · have hpair := hclock.increasing
    rw [hall, pairwise_append] at hpair
    exact hpair.1
  · intro r hr
    exact hclock.positive r (by simp [hall, hr])
  · intro r hr
    exact hclock.lt r (by simp [hall, hr])

theorem ordered_of_clock (hclock : ClockMovesOn calls) : Ordered calls := by
  induction calls using reverseRecOn with
  | nil => exact ⟨.inl rfl, .inl rfl, nofun, nofun⟩
  | append_singleton calls call ih =>
    have hord := ih hclock.init
    cases call with
    | init =>
      constructor <;> simp [startOf, endOf, timerPhase, TimerPhase.next]
    | start now =>
      have hlt : (endOf calls).ns < now.ns := hclock.kept_lt rfl hord.end_mem
      have hstart : startOf (calls ++ [.start now]) = now := by simp [startOf]
      have hend : endOf (calls ++ [.start now]) = endOf calls := by simp [endOf]
      have hread : readings (calls ++ [.start now]) = readings calls ++ [now] := by
        simp [readings]
      constructor
      · right
        simp [hstart, hread]
      · rw [hend, hread]
        exact hord.end_mem.imp_right fun h => mem_append_left _ h
      · intro _
        rwa [hstart, hend]
      · intro h
        simp [timerPhase, TimerPhase.next] at h
    | stop now =>
      have hlt : (startOf calls).ns < now.ns := hclock.kept_lt rfl hord.start_mem
      have hstart : startOf (calls ++ [.stop now]) = startOf calls := by simp [startOf]
      have hend : endOf (calls ++ [.stop now]) = now := by simp [endOf]
      have hread : readings (calls ++ [.stop now]) = readings calls ++ [now] := by
        simp [readings]
      constructor
      · rw [hstart, hread]
        exact hord.start_mem.imp_right fun h => mem_append_left _ h
      · right
        simp [hend, hread]
      · intro h
        simp [timerPhase, TimerPhase.next] at h
      · intro _
        rwa [hstart, hend]
    | checkpoint =>
      constructor
      · simpa [startOf, readings] using hord.start_mem
      · simpa [endOf, readings] using hord.end_mem
      · simpa [startOf, endOf, timerPhase, TimerPhase.next] using hord.running
      · simpa [startOf, endOf, timerPhase, TimerPhase.next] using hord.stopped

/-- A time the timer keeps is less than 2^64 ns away from zero. -/
theorem ClockMovesOn.kept_bounds {kept : Timespec} (hclock : ClockMovesOn calls)
    (hkept : kept = ⟨0, 0⟩ ∨ kept ∈ readings calls) : 0 ≤ kept.ns ∧ kept.ns < 2 ^ 64 := by
  rcases hkept with rfl | hmem
  · simp [ns_zero]
  · exact ⟨(hclock.positive kept hmem).le, hclock.lt kept hmem⟩

/-- On such a clock two different times are told apart, in either order. -/
theorem tells_iff_not_stopped (hclock : ClockMovesOn calls) :
    TellsRunning calls ↔ timerPhase calls ≠ .stopped := by
  have hord := ordered_of_clock hclock
  obtain ⟨hs0, hs1⟩ := hclock.kept_bounds hord.start_mem
  obtain ⟨he0, he1⟩ := hclock.kept_bounds hord.end_mem
  have heq : (startOf calls).ns ≡ (endOf calls).ns [ZMOD 2 ^ 64]
      ↔ (startOf calls).ns = (endOf calls).ns := by
    rw [Int.ModEq, Int.emod_eq_of_lt hs0 hs1, Int.emod_eq_of_lt he0 he1]
  unfold TellsRunning
  cases hphase : timerPhase calls with
  | fresh => simp
  | running =>
    have hlt := hord.running hphase
    simp only [heq, hlt.ne', not_false_eq_true, ne_eq, reduceCtorEq]
  | stopped =>
    have hlt := hord.stopped hphase
    simp only [heq, hlt.ne, ne_eq, not_true_eq_false]

/-! ### The report -/

theorem stopUnfinished_fst (copies : List (SbTimer × Timespec)) :
    (stopUnfinished copies).1 = copies.countP fun c => sbTimerRunning c.1 := by
  induction copies with
  | nil => rfl
  | cons c copies ih =>
    rw [countP_cons, ← ih, stopUnfinished]
    cases sbTimerRunning c.1 <;> simp

/-- What the reporting thread finds in `timers_copy`, thread by thread, with the readings of
its own clock. -/
def timersCopy (threads : List (List TimerCall × Timespec)) : List (SbTimer × Timespec) :=
  threads.map fun th => ((sbTimerCheckpoint (timerCalls th.1)).1, th.2)

theorem unfinished_eq (threads : List (List TimerCall × Timespec)) :
    (stopUnfinished (timersCopy threads)).1
      = threads.countP fun th => sbTimerRunning (timerCalls th.1) := by
  rw [stopUnfinished_fst, timersCopy, countP_map]
  rfl

theorem unfinished_of_tells
    (h : ∀ th ∈ threads, TellsRunning th.1) :
    (stopUnfinished (timersCopy threads)).1
      = threads.countP fun th => timerPhase th.1 = .running := by
  rw [unfinished_eq]
  refine countP_congr fun th hth => ?_
  rw [(running_eq_iff_tells th.1).mpr (h th hth)]

/-- A stopped timer is counted as well: its two times differ. -/
theorem running_of_clock (hclock : ClockMovesOn calls) :
    sbTimerRunning (timerCalls calls) = decide (timerPhase calls ≠ .fresh) := by
  by_cases hst : timerPhase calls = .stopped
  · have hne := mt (running_eq_iff_tells calls).mp
      (mt (tells_iff_not_stopped hclock).mp (not_not.mpr hst))
    simpa [hst] using hne
  · rw [(running_eq_iff_tells calls).mpr ((tells_iff_not_stopped hclock).mpr hst)]
    cases hphase : timerPhase calls <;> simp_all

theorem unfinished_of_clock
    (h : ∀ th ∈ threads, ClockMovesOn th.1) :
    (stopUnfinished (timersCopy threads)).1
      = threads.countP (fun th => timerPhase th.1 = .running)
        + threads.countP fun th => timerPhase th.1 = .stopped := by
  rw [unfinished_eq]
  induction threads with
  | nil => rfl
  | cons th threads ih =>
    have hhead := running_of_clock (h th (by simp))
    simp only [countP_cons, ih fun th' hth' => h th' (by simp [hth']), hhead]
    cases timerPhase th.1 <;> simp <;> omega

/-- **The running test.**  Behind any sequence of calls the timer, and the copy a checkpoint
takes of it, answer rightly exactly when `TellsRunning`; the report then counts the events
in progress.  On a clock that moves on that is when the timer was not stopped last, and the
report counts the threads between two events as well. -/
theorem sbTimerRunning_right_iff (threads : List (List TimerCall × Timespec)) :
    (∀ th ∈ threads,
      let timer := timerCalls th.1
      (sbTimerRunning timer = decide (timerPhase th.1 = .running) ∧
        sbTimerRunning (sbTimerCheckpoint timer).1 = decide (timerPhase th.1 = .running)
          ↔ TellsRunning th.1) ∧
      (ClockMovesOn th.1 → (TellsRunning th.1 ↔ timerPhase th.1 ≠ .stopped))) ∧
    ((∀ th ∈ threads, TellsRunning th.1) →
      (stopUnfinished (timersCopy threads)).1
        = threads.countP fun th => timerPhase th.1 = .running) ∧
    ((∀ th ∈ threads, ClockMovesOn th.1) →
      (stopUnfinished (timersCopy threads)).1
        = threads.countP (fun th => timerPhase th.1 = .running)
          + threads.countP fun th => timerPhase th.1 = .stopped) := by
  refine ⟨fun th _ => ⟨?_, tells_iff_not_stopped⟩, unfinished_of_tells, unfinished_of_clock⟩
  have hcopy : (sbTimerCheckpoint (timerCalls th.1)).1 = timerCalls th.1 := rfl
  rw [hcopy, and_self]
  exact running_eq_iff_tells th.1

/-- A thread that has finished its only event counts as unfinished. -/
theorem stopped_timer_runs :
    let calls : List TimerCall := [.init, .start ⟨1, 0⟩, .stop ⟨2, 0⟩]
    (readings calls).Pairwise (fun r r' => r.ns < r'.ns) ∧
      timerPhase calls = .stopped ∧
      sbTimerRunning (timerCalls calls) = true ∧
      sbTimerRunning (sbTimerCheckpoint (timerCalls calls)).1 = true ∧
      (stopUnfinished (timersCopy [(calls, ⟨3, 0⟩)])).1 = 1 := by
  decide

end Sysbench
