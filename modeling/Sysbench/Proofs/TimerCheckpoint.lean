/-
What a checkpoint does to an event that is under way.

In rate mode the value recorded for an event is its running time and the time it spent in
the queue, which `sb_more_events` leaves in the timer.  A checkpoint resets the statistics
and is meant to leave everything else alone; but `queue_time` is one of the fields it
resets, so an event that is stopped behind a checkpoint has lost its time in the queue.

Histories are lists of operations with the newest first, like the record of the run, so
that everything is an induction over the operations made so far.
-/
import Sysbench.Model.Timer

namespace Sysbench

open List

variable {T : Type}

/-- The operation is no checkpoint. -/
def TimerOp.isEventOp : TimerOp T → Bool
  | .start _ _ => true
  | .queue _ _ => true
  | .stop _ _ => true
  | .checkpoint _ => false

/-- The run with all checkpoints removed. -/
def withoutCheckpoints (ops : List (TimerOp T)) : List (TimerOp T) :=
  ops.filter TimerOp.isEventOp

variable [DecidableEq T]

/-! ### What an event is worth -/

/-- The queue time that `sb_more_events` has computed last for thread `t`. -/
def queuedFor (t : T) : List (TimerOp T) → UInt64
  | [] => 0
  | .queue u ns :: older => if u = t then ns else queuedFor t older
  | _ :: older => queuedFor t older

/-- When thread `t` has started its timer last. -/
def startedAt (t : T) : List (TimerOp T) → Timespec
  | [] => ⟨0, 0⟩
  | .start u now :: older => if u = t then now else startedAt t older
  | _ :: older => startedAt t older

/-- The timer of thread `t` has been checkpointed since its last `sb_more_events`. -/
def checkpointedSince (t : T) : List (TimerOp T) → Bool
  | [] => false
  | .queue u _ :: older => if u = t then false else checkpointedSince t older
  | .checkpoint u :: older => if u = t then true else checkpointedSince t older
  | _ :: older => checkpointedSince t older

/-- For every event of thread `t`: stop minus start, plus the time in the queue. -/
def eventValues (t : T) : List (TimerOp T) → List UInt64
  | [] => []
  | .stop u now :: older =>
    if u = t then
      (timespecDiff now (startedAt t older) + queuedFor t older) :: eventValues t older
    else eventValues t older
  | _ :: older => eventValues t older

/-- Whenever the timer of thread `t` is stopped, no checkpoint has come since the event was
taken from the queue, or it had not been queued at all. -/
def QueueTimeKept (t : T) (ops : List (TimerOp T)) : Prop :=
  ∀ before now after, ops = before ++ .stop t now :: after →
    checkpointedSince t before.reverse = true → queuedFor t before.reverse = 0

/-! ### The timer behind a history -/

/-- The state behind a history. -/
def timersAfter (history : List (TimerOp T)) : TimerState T :=
  timerRun history.reverse

theorem timersAfter_cons (op : TimerOp T) (older : List (TimerOp T)) :
    timersAfter (op :: older) = timerStep (timersAfter older) op := by
  rw [timersAfter, timerRun, reverse_cons, foldl_append]
  rfl

theorem update_timer_of_ne {timers : T → SbTimer} {timer : SbTimer} {t u : T} (h : u ≠ t) :
    Function.update timers u timer t = timers t :=
  Function.update_of_ne h.symm _ _

/-- No operation but a start touches the start time. -/
theorem timeStart_timersAfter (t : T) (history : List (TimerOp T)) :
    ((timersAfter history).timers t).timeStart = startedAt t history := by
  induction history with
  | nil => rfl
  | cons op older ih =>
    rw [timersAfter_cons]
    cases op with
    | start u now =>
      by_cases hu : u = t
      · subst hu
        simp [timerStep, startedAt, sbTimerStart]
      · simp [timerStep, startedAt, update_timer_of_ne hu, hu, ih]
    | queue u ns | stop u now | checkpoint u =>
      by_cases hu : u = t
      · subst hu
        simp [timerStep, startedAt, ih, sbTimerStop, sbTimerCheckpoint, sbTimerReset]
      · simp [timerStep, startedAt, update_timer_of_ne hu, ih]

/-- The queue time is what `sb_more_events` stored, unless a checkpoint has cleared it. -/
theorem queueTime_timersAfter (t : T) (history : List (TimerOp T)) :
    ((timersAfter history).timers t).queueTime
      = bif checkpointedSince t history then 0 else queuedFor t history := by
  induction history with
  | nil => rfl
  | cons op older ih =>
    rw [timersAfter_cons]
    cases op with
    | checkpoint u =>
      by_cases hu : u = t
      · subst hu
        simp [timerStep, checkpointedSince, sbTimerCheckpoint, sbTimerReset]
      · simp [timerStep, checkpointedSince, queuedFor, update_timer_of_ne hu, hu, ih]
    | queue u ns =>
      by_cases hu : u = t
      · subst hu
        simp [timerStep, checkpointedSince, queuedFor]
      · simp [timerStep, checkpointedSince, queuedFor, update_timer_of_ne hu, hu, ih]
    | start u now | stop u now =>
      by_cases hu : u = t
      · subst hu
        simp [timerStep, checkpointedSince, queuedFor, sbTimerStart, sbTimerStop, ih]
      · simp [timerStep, checkpointedSince, queuedFor, update_timer_of_ne hu, ih]

/-! ### Without checkpoints -/

theorem checkpointedSince_filter (t : T) (history : List (TimerOp T)) :
    checkpointedSince t (history.filter TimerOp.isEventOp) = false := by
  induction history with
  | nil => rfl
  | cons op older ih =>
    cases op <;> simp [filter_cons, TimerOp.isEventOp, checkpointedSince, ih]

theorem startedAt_filter (t : T) (history : List (TimerOp T)) :
    startedAt t (history.filter TimerOp.isEventOp) = startedAt t history := by
  induction history with
  | nil => rfl
  | cons op older ih => cases op <;> simp [filter_cons, TimerOp.isEventOp, startedAt, ih]

theorem queuedFor_filter (t : T) (history : List (TimerOp T)) :
    queuedFor t (history.filter TimerOp.isEventOp) = queuedFor t history := by
  induction history with
  | nil => rfl
  | cons op older ih => cases op <;> simp [filter_cons, TimerOp.isEventOp, queuedFor, ih]

/-- What an event is worth does not mention checkpoints. -/
theorem eventValues_filter (t : T) (history : List (TimerOp T)) :
    eventValues t (history.filter TimerOp.isEventOp) = eventValues t history := by
  induction history with
  | nil => rfl
  | cons op older ih =>
    cases op <;>
      simp [filter_cons, TimerOp.isEventOp, eventValues, startedAt_filter,
        queuedFor_filter, ih]

/-! ### The values recorded -/

/-- `QueueTimeKept`, over a history. -/
def KeptInHistory (t : T) (history : List (TimerOp T)) : Prop :=
  ∀ newer now older, history = newer ++ .stop t now :: older →
    checkpointedSince t older = true → queuedFor t older = 0

theorem queueTimeKept_iff (t : T) (ops : List (TimerOp T)) :
    QueueTimeKept t ops ↔ KeptInHistory t ops.reverse := by
  refine ⟨fun h newer now older heq => ?_, fun h before now after heq => ?_⟩
  · have hops : ops = older.reverse ++ .stop t now :: newer.reverse := by
      have := congrArg reverse heq
      simpa using this
    have hkept := h _ now _ hops
    rwa [reverse_reverse] at hkept
  · refine h after.reverse now before.reverse ?_
    rw [heq]
    simp

/-- The newest operation adds a condition only if it is a stop. -/
theorem keptInHistory_cons (t : T) (op : TimerOp T) (older : List (TimerOp T)) :
    KeptInHistory t (op :: older) ↔
      ((∃ now, op = .stop t now) → checkpointedSince t older = true → queuedFor t older = 0) ∧
      KeptInHistory t older := by
  refine ⟨fun h => ⟨?_, ?_⟩, ?_⟩
  · rintro ⟨now, rfl⟩
    exact h [] now older rfl
  · intro newer now older' heq
    exact h (op :: newer) now older' (by rw [heq, cons_append])
  · rintro ⟨hop, hkept⟩ newer now older' heq
    cases newer with
    | nil =>
      cases heq
      exact hop ⟨now, rfl⟩
    | cons op' newer =>
      cases heq
      exact hkept newer now older' rfl

/-- The value of one event is right exactly if its time in the queue has been kept. -/
theorem elapsed_eq_iff (t : T) (now : Timespec) (older : List (TimerOp T)) :
    sbTimerElapsed ((timersAfter older).timers t) now
        = timespecDiff now (startedAt t older) + queuedFor t older
      ↔ (checkpointedSince t older = true → queuedFor t older = 0) := by
  rw [sbTimerElapsed, timeStart_timersAfter, queueTime_timersAfter]
  cases checkpointedSince t older with
  | true => simp [eq_comm]
  | false => simp

theorem recordedBy_eq_iff (t : T) (history : List (TimerOp T)) :
    recordedBy t (timersAfter history).log = eventValues t history ↔ KeptInHistory t history := by
  induction history with
  | nil => exact ⟨fun _ newer now older heq => by simp at heq, fun _ => rfl⟩
  | cons op older ih =>
    rw [timersAfter_cons, keptInHistory_cons, ← ih]
    cases op with
    | stop u now =>
      by_cases hu : u = t
      · subst hu
        have hstop := elapsed_eq_iff u now older
        simp only [timerStep, recordedBy, eventValues, sbTimerStop, if_pos, cons.injEq,
          hstop]
        simp
      · simp [timerStep, recordedBy, eventValues, hu]
    | start u now | queue u ns | checkpoint u => simp [timerStep, recordedBy, eventValues]

theorem recordedBy_withoutCheckpoints (t : T) (ops : List (TimerOp T)) :
    recordedBy t (timerRun (withoutCheckpoints ops)).log = eventValues t ops.reverse := by
  have hreverse : timerRun (withoutCheckpoints ops)
      = timersAfter (ops.reverse.filter TimerOp.isEventOp) := by
    rw [timersAfter, withoutCheckpoints, ← filter_reverse, reverse_reverse]
  rw [hreverse, ← eventValues_filter t ops.reverse, recordedBy_eq_iff]
  intro newer now older heq hsince
  -- What is left of the history holds no checkpoint.
  have hfilter : older.filter TimerOp.isEventOp = older := by
    rw [filter_eq_self]
    intro op hop
    have hmem : op ∈ ops.reverse.filter TimerOp.isEventOp := by
      rw [heq]
      exact mem_append_right _ (mem_cons_of_mem _ hop)
    exact (mem_filter.mp hmem).2
  rw [← hfilter, checkpointedSince_filter] at hsince
  cases hsince

/-- **When a checkpoint leaves the running events alone.**  In every sequence of operations,
with checkpoints anywhere: every event of a thread is recorded with its running time and its
time in the queue, as it would be without any checkpoint, if and only if no checkpoint of the
thread's timer falls between taking an event that had to wait from the queue and stopping
it. -/
theorem checkpoint_keeps_events_iff (ops : List (TimerOp T)) (t : T) :
    (recordedBy t (timerRun ops).log = eventValues t ops.reverse ∧
      recordedBy t (timerRun ops).log = recordedBy t (timerRun (withoutCheckpoints ops)).log)
      ↔ QueueTimeKept t ops := by
  have hvalues := recordedBy_eq_iff t ops.reverse
  rw [timersAfter, reverse_reverse, ← queueTimeKept_iff] at hvalues
  rw [recordedBy_withoutCheckpoints, and_self, hvalues]

/-- An event that waited for 5 ns and ran for 3 ns is recorded as 3 ns if its timer is
checkpointed while it runs. -/
theorem checkpoint_loses_queue_time :
    recordedBy 0 (timerRun [.queue 0 5, .start 0 ⟨0, 0⟩, .checkpoint (0 : Fin 1),
        .stop 0 ⟨0, 3⟩]).log = [3] ∧
      recordedBy 0 (timerRun (withoutCheckpoints [.queue 0 5, .start 0 ⟨0, 0⟩,
        .checkpoint (0 : Fin 1), .stop 0 ⟨0, 3⟩])).log = [8] :=
  ⟨rfl, rfl⟩

end Sysbench
