/-
The start of a run: `worker_thread`, `run_test` and the barrier of `sb_barrier.c`.

Every worker runs its `thread_init`, sets the global error flag if that fails, and waits
on the start barrier, as do the main thread and in rate mode the event generator.  The
last to arrive releases the others and calls `threads_started_callback`, which reports
an error if the flag is set; the barrier hands the error on to everybody.

A phase is the statement a party is about to execute.  What stands between two waits for
the mutex is split where another party could see the difference, and the callback is a
step of its own.
-/
import Mathlib.Data.Fintype.Sum

namespace Sysbench

/-- The threads that meet at `worker_barrier`. -/
inductive Party (threads : ℕ) where
  | worker (i : Fin threads)
  | main
  | generator
  deriving DecidableEq

/-- Parties as a sum, to count them. -/
def Party.equiv (threads : ℕ) : Fin threads ⊕ Bool ≃ Party threads where
  toFun
    | .inl i => .worker i
    | .inr true => .main
    | .inr false => .generator
  invFun
    | .worker i => .inl i
    | .main => .inr true
    | .generator => .inr false
  left_inv := by
    rintro (i | (_ | _))
    · rfl
    · rfl
    · rfl
  right_inv := by
    rintro (i | _ | _)
    · rfl
    · rfl
    · rfl

instance (threads : ℕ) : Fintype (Party threads) := Fintype.ofEquiv _ (Party.equiv threads)

inductive PartyPhase where
  /-- There is no event generator. -/
  | absent
  /-- Before `sb_barrier_wait`; a worker is in `thread_init`. -/
  | starting
  /-- `thread_init` has failed; `sb_globals.error = 1` -/
  | failing
  /-- `pthread_mutex_lock` -/
  | lock
  /-- `!--barrier->count` -/
  | decrement
  /-- The last to arrive: a new serial, a new count, the broadcast -/
  | release
  /-- The last to arrive: `barrier->callback` -/
  | callback
  /-- `pthread_cond_wait`, with the mutex held and the local `serial` -/
  | condWait (serial : ℕ)
  | waiting (serial : ℕ)
  /-- Woken; `pthread_cond_wait` takes the mutex again. -/
  | relock (serial : ℕ)
  /-- `while (serial == barrier->serial)` -/
  | recheck (serial : ℕ)
  /-- `pthread_mutex_unlock`, before `res` is returned -/
  | unlock (res : ℤ)
  /-- `sb_barrier_wait` has returned. -/
  | returned (res : ℤ)
  /-- A worker in its run loop -/
  | running
  /-- A worker that has returned without running -/
  | exited
  deriving DecidableEq

structure StartConfig (threads : ℕ) where
  /-- Does the worker's `thread_init` succeed? -/
  initOk : Fin threads → Bool
  /-- `tx_rate > 0` -/
  rate : Bool

def StartConfig.barrierThreads {threads : ℕ} (cfg : StartConfig threads) : ℕ :=
  1 + threads + if cfg.rate then 1 else 0

structure StartState (threads : ℕ) where
  /-- `sb_globals.error` -/
  error : Bool
  /-- `sb_globals.threads_running` -/
  threadsRunning : ℕ
  count : ℕ
  serial : ℕ
  /-- `barrier->error` -/
  barrierError : Bool
  /-- Who holds `barrier->mutex` -/
  mutex : Option (Party threads)
  phase : Party threads → PartyPhase
  /-- How often the callback has been called -/
  callbacks : ℕ

inductive StartEvent (threads : ℕ) where
  /-- The next step of a party -/
  | step (p : Party threads)
  /-- `pthread_cond_wait` returns without having been woken. -/
  | spurious (p : Party threads)
  /-- The run loop of a worker fails and sets `sb_globals.error`. -/
  | runError (i : Fin threads)

variable {threads : ℕ}

def startInit (cfg : StartConfig threads) : StartState threads where
  error := false
  threadsRunning := 0
  count := cfg.barrierThreads
  serial := 0
  barrierError := false
  mutex := none
  phase := fun p => if p = .generator ∧ cfg.rate = false then .absent else .starting
  callbacks := 0

namespace StartState

def goto (s : StartState threads) (p : Party threads) (q : PartyPhase) : StartState threads :=
  { s with phase := Function.update s.phase p q }

/-- Woken by the broadcast. -/
def wake : PartyPhase → PartyPhase
  | .waiting serial => .relock serial
  | q => q

/-- `thread_init` of a worker; the others have none. -/
def afterInit (cfg : StartConfig threads) : Party threads → PartyPhase
  | .worker i => if cfg.initOk i then .lock else .failing
  | .main => .lock
  | .generator => .lock

/-- What a party does with the result of its wait. -/
def afterWait (cfg : StartConfig threads) (res : ℤ) : Party threads → PartyPhase
  | .worker i => if cfg.initOk i ∧ 0 ≤ res then .running else .exited
  | .main => .returned res
  | .generator => .returned res

/-- `threads_started_callback`, and what `sb_barrier_wait` makes of its result. -/
def callback (s : StartState threads) (p : Party threads) : StartState threads :=
  if s.error then
    { s.goto p (.unlock (-1)) with barrierError := true, callbacks := s.callbacks + 1 }
  else
    { s.goto p (.unlock 1) with threadsRunning := threads, callbacks := s.callbacks + 1 }

/-- The next step of a party, which may have to wait for the mutex. -/
def stepParty (cfg : StartConfig threads) (s : StartState threads) (p : Party threads) :
    StartState threads :=
  match s.phase p with
  | .absent => s
  | .starting => s.goto p (afterInit cfg p)
  | .failing => { s.goto p .lock with error := true }
  | .lock => if s.mutex = none then { s.goto p .decrement with mutex := some p } else s
  | .decrement =>
    { s.goto p (if s.count - 1 = 0 then .release else .condWait s.serial) with
      count := s.count - 1 }
  | .release =>
    { s with
      serial := s.serial + 1
      count := cfg.barrierThreads
      phase := Function.update (fun q => wake (s.phase q)) p .callback }
  | .callback => s.callback p
  | .condWait serial => { s.goto p (.waiting serial) with mutex := none }
  | .waiting _ => s
  | .relock serial =>
    if s.mutex = none then { s.goto p (.recheck serial) with mutex := some p } else s
  | .recheck serial =>
    if serial = s.serial then s.goto p (.condWait serial)
    else s.goto p (.unlock (if s.barrierError then -1 else 0))
  | .unlock res => { s.goto p (.returned res) with mutex := none }
  | .returned res => s.goto p (afterWait cfg res p)
  | .running => s
  | .exited => s

/-- One event.  What cannot happen in `s` leaves it alone. -/
def step (cfg : StartConfig threads) (s : StartState threads) : StartEvent threads →
    StartState threads
  | .step p => s.stepParty cfg p
  | .spurious p => s.goto p (wake (s.phase p))
  | .runError i => if s.phase (.worker i) = .running then { s with error := true } else s

/-- Any order of arrivals, from the creation of the threads on. -/
def run (cfg : StartConfig threads) (events : List (StartEvent threads)) : StartState threads :=
  events.foldl (step cfg) (startInit cfg)

end StartState

end Sysbench
