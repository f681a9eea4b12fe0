/-
The barrier of `sb_barrier.c`, used over and over by the same threads.

`sb_barrier_wait` counts down; the last thread to arrive starts a new count and a new
serial, wakes the others and calls the callback, all with the mutex held.  The others wait
for the serial to change.  A phase is the statement a thread is about to execute, so that
any other thread can come in between two statements; a thread outside may begin its next
call at any time.

The counters of the barrier are the 32-bit ones of the source.  Next to them the state
keeps a record that the code does not have: how many calls each thread has begun, what
its finished calls have returned, how often the count has come down to zero and how often
the callback has been called.
-/
import Mathlib.Data.UInt

namespace Sysbench

open Function

/-- `sb_barrier_t`, without the mutex, the condition variable and the callback. -/
structure SbBarrier where
  count : UInt32
  initCount : UInt32
  serial : UInt32
  error : Bool

def sbBarrierInit (count : UInt32) : Option SbBarrier :=
  if count = 0 then none
  else some { count := count, initCount := count, serial := 0, error := false }

/-- The callback, given by what its calls return one after the other; none is NULL. -/
abbrev SbBarrierCb := Option (ℕ → ℤ)

inductive WaitPhase where
  /-- Not in `sb_barrier_wait` -/
  | outside
  /-- `pthread_mutex_lock` -/
  | lock
  /-- `!--barrier->count` -/
  | decrement
  /-- The last to arrive: a new serial, a new count -/
  | release
  /-- The last to arrive: `pthread_cond_broadcast` -/
  | broadcast
  /-- The last to arrive: `barrier->callback` -/
  | callback
  /-- `pthread_cond_wait`, with the mutex held and the local `serial` -/
  | condWait (serial : UInt32)
  | waiting (serial : UInt32)
  /-- Woken; `pthread_cond_wait` takes the mutex again. -/
  | relock (serial : UInt32)
  /-- `while (serial == barrier->serial)` -/
  | recheck (serial : UInt32)
  /-- `pthread_mutex_unlock`, before `res` is returned -/
  | unlock (res : ℤ)
  deriving DecidableEq

structure BarrierState (T : Type) where
  barrier : SbBarrier
  /-- Who holds `barrier->mutex` -/
  mutex : Option T
  phase : T → WaitPhase
  /-- How many calls a thread has begun -/
  calls : T → ℕ
  /-- What its calls have returned so far -/
  results : T → List ℤ
  /-- How often the count has come down to zero -/
  rounds : ℕ
  /-- How often the callback has been called -/
  callbacks : ℕ

inductive BarrierEvent (T : Type) where
  /-- The thread calls `sb_barrier_wait`. -/
  | call (t : T)
  /-- The next step of a thread in it -/
  | step (t : T)
  /-- `pthread_cond_wait` returns without having been woken. -/
  | spurious (t : T)

def sbBarrierSerialThread : ℤ := 1

namespace BarrierState

variable {T : Type}

/-- A barrier that nobody has used. -/
def start (barrier : SbBarrier) : BarrierState T where
  barrier := barrier
  mutex := none
  phase := fun _ => .outside
  calls := fun _ => 0
  results := fun _ => []
  rounds := 0
  callbacks := 0

/-- Woken by the broadcast. -/
def awake : WaitPhase → WaitPhase
  | .waiting serial => .relock serial
  | q => q

variable [DecidableEq T]

def goto (s : BarrierState T) (t : T) (q : WaitPhase) : BarrierState T :=
  { s with phase := update s.phase t q }

/-- `barrier->callback != NULL && barrier->callback(barrier->arg) != 0`, and what follows. -/
def callCallback (cb : SbBarrierCb) (s : BarrierState T) (t : T) : BarrierState T :=
  match cb with
  | none => s.goto t (.unlock sbBarrierSerialThread)
  | some f =>
    if f s.callbacks ≠ 0 then
      { s.goto t (.unlock (-1)) with
        barrier := { s.barrier with error := true }
        callbacks := s.callbacks + 1 }
    else
      { s.goto t (.unlock sbBarrierSerialThread) with callbacks := s.callbacks + 1 }

/-- The next step of a thread, which may have to wait for the mutex. -/
def stepThread (cb : SbBarrierCb) (s : BarrierState T) (t : T) : BarrierState T :=
  match s.phase t with
  | .outside => s
  | .lock => if s.mutex = none then { s.goto t .decrement with mutex := some t } else s
  | .decrement =>
    { s.goto t (if s.barrier.count - 1 = 0 then .release else .condWait s.barrier.serial) with
      barrier := { s.barrier with count := s.barrier.count - 1 } }
  | .release =>
    { s.goto t .broadcast with
      barrier := { s.barrier with
        serial := s.barrier.serial + 1
        count := s.barrier.initCount }
      rounds := s.rounds + 1 }
  | .broadcast => { s with phase := update (fun r => awake (s.phase r)) t .callback }
  | .callback => s.callCallback cb t
  | .condWait serial => { s.goto t (.waiting serial) with mutex := none }
  | .waiting _ => s
  | .relock serial =>
    if s.mutex = none then { s.goto t (.recheck serial) with mutex := some t } else s
  | .recheck serial =>
    if serial = s.barrier.serial then s.goto t (.condWait serial)
    else s.goto t (.unlock (if s.barrier.error then -1 else 0))
  | .unlock res =>
    { s.goto t .outside with
      mutex := none
      results := update s.results t (s.results t ++ [res]) }

/-- One event.  What cannot happen in `s` leaves it alone. -/
def step (cb : SbBarrierCb) (s : BarrierState T) : BarrierEvent T → BarrierState T
  | .call t =>
    if s.phase t = .outside then
      { s.goto t .lock with calls := update s.calls t (s.calls t + 1) }
    else s
  | .step t => s.stepThread cb t
  | .spurious t => s.goto t (awake (s.phase t))

/-- Any interleaving of the calls, from a barrier that nobody has used. -/
def run (cb : SbBarrierCb) (barrier : SbBarrier) (events : List (BarrierEvent T)) :
    BarrierState T :=
  events.foldl (step cb) (start barrier)

end BarrierState

end Sysbench
