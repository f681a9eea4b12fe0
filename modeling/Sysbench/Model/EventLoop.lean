/-
`sb_more_events` and the event generator of `sysbench.c`.

A worker thread calls `sb_more_events` before every event.  The call checks the error
flag and the time limit, draws a ticket if the number of events is limited, and in rate
mode takes an event off the queue, waiting on `queue_cond` while there is none.  The
generator thread appends to the queue, signals after every event, and broadcasts once
before it exits, at the time limit or when the queue is full.

A phase of a thread is the statement it is about to execute, one access to shared state
each.  An event is one such step of one thread, or something that happens to them: the
clock advances, another thread sets the error flag, a wait ends spuriously, the main
thread ends the warm-up.  The queue is a `ck_ring` with one producer, taken here as the
list of its entries with both of its operations atomic.
-/
import Mathlib.Data.UInt

namespace Sysbench

/-- The settings that `sb_more_events` and the generator read. -/
structure EventConfig where
  /-- `tx_rate > 0` -/
  rate : Bool
  maxTimeNs : ℕ
  /-- `max_events` as the options set it -/
  maxEvents : UInt64
  /-- `warmup_time > 0` -/
  warmup : Bool

/-- `MAX_QUEUE_LEN`; a ring of this size holds one entry less. -/
def maxQueueLen : ℕ := 131072

/-- The local `ptr`: NULL, what a dequeue that lost a race and then failed has copied into it, or
what a successful dequeue has put there.  The number is an index into `queue_array`. -/
inductive EventPtr where
  | null
  | raced (i : ℕ)
  | dequeued (i : ℕ)
  deriving DecidableEq

/-- What a worker is about to do. -/
inductive WorkerPhase where
  /-- It is not in `sb_more_events`. -/
  | outside
  /-- `if (sb_globals.error)` -/
  | checkError
  /-- The time limit -/
  | checkTime
  /-- `ck_pr_load_64(&sb_globals.max_events)` -/
  | loadLimit
  /-- `ck_pr_faa_64(&sb_globals.nevents, 1)` -/
  | draw
  /-- `ck_ring_dequeue_spmc` -/
  | dequeue
  /-- The dequeue has failed; `!sb_globals.error` of the loop condition -/
  | loopError
  /-- `pthread_mutex_lock` -/
  | lock
  /-- `pthread_cond_wait`, with the mutex held -/
  | condWait
  /-- Blocked on `queue_cond` -/
  | waiting
  /-- Woken; `pthread_cond_wait` takes the mutex again -/
  | relock
  /-- `pthread_mutex_unlock` -/
  | unlock
  /-- `sb_globals.error` after waiting -/
  | recheckError
  /-- The time limit after waiting -/
  | recheckTime
  /-- The computation of `queue_time`, which reads through `ptr` -/
  | queueTime
  /-- It has read through NULL. -/
  | faulted
  deriving DecidableEq

structure WorkerState where
  phase : WorkerPhase
  /-- The local `max_events`, once it is loaded -/
  maxEvents : Option UInt64
  ptr : EventPtr
  /-- `timers[thread_id].queue_time` -/
  queueTime : ℕ

inductive GeneratorPhase where
  /-- There is no generator, or it has not got past the barrier. -/
  | absent
  /-- The time limit at the top of its loop -/
  | checkTime
  /-- `queue_array[i] = sb_timer_value(&sb_exec_timer)` -/
  | store
  | enqueue
  /-- The queue was full; `sb_globals.error = 1` -/
  | setError
  /-- `pthread_cond_broadcast`, and then the return -/
  | broadcast
  | signal
  | terminated
  deriving DecidableEq

/-- The shared variables, the threads, and a record of the calls that have returned: the
`max_events` a call has loaded, if it came that far, and its result. -/
structure EventState (threads : ℕ) where
  error : Bool
  /-- `sb_timer_value(&sb_exec_timer)` -/
  now : ℕ
  maxEvents : UInt64
  nevents : UInt64
  queueArray : ℕ → ℕ
  /-- The generator's `i` -/
  index : ℕ
  /-- `queue_ring`, oldest entry first -/
  ring : List ℕ
  /-- Who holds `queue_mutex` -/
  mutex : Option (Fin threads)
  generator : GeneratorPhase
  workers : Fin threads → WorkerState
  returned : List (Option UInt64 × Bool)

inductive SchedEvent (threads : ℕ) where
  /-- The next step of a worker.  Should it be a dequeue that fails, `raced` is what a lost race
  has left in `ptr`. -/
  | worker (w : Fin threads) (raced : Option ℕ)
  /-- The next step of the generator.  Should it be the signal, `woken` is the worker it wakes. -/
  | generator (woken : Option (Fin threads))
  /-- `pthread_cond_wait` returns without having been woken. -/
  | spurious (w : Fin threads)
  /-- Another thread sets `sb_globals.error`. -/
  | fail
  | tick (ns : ℕ)
  /-- The main thread stores the saved `max_events` at the end of the warm-up. -/
  | endWarmup

/-- All threads have passed the start barrier. -/
def eventInit (cfg : EventConfig) (threads : ℕ) : EventState threads where
  error := false
  now := 0
  maxEvents := if cfg.warmup then 0 else cfg.maxEvents
  nevents := 0
  queueArray := fun _ => 0
  index := 0
  ring := []
  mutex := none
  generator := if cfg.rate then .checkTime else .absent
  workers := fun _ => ⟨.outside, none, .null, 0⟩
  returned := []

/-- `max_time_ns > 0 && sb_timer_value(&sb_exec_timer) >= max_time_ns` -/
def timeLimitExceeded (cfg : EventConfig) (now : ℕ) : Bool :=
  0 < cfg.maxTimeNs && cfg.maxTimeNs ≤ now

namespace EventState

variable {threads : ℕ}

def setWorker (s : EventState threads) (w : Fin threads) (ws : WorkerState) : EventState threads :=
  { s with workers := Function.update s.workers w ws }

/-- The worker goes on to the statement `p`. -/
def goto (s : EventState threads) (w : Fin threads) (p : WorkerPhase) : EventState threads :=
  s.setWorker w { s.workers w with phase := p }

/-- `sb_more_events` returns. -/
def ret (s : EventState threads) (w : Fin threads) (result : Bool) : EventState threads :=
  { s.goto w .outside with returned := ((s.workers w).maxEvents, result) :: s.returned }

/-- Behind the limit on the number of events. -/
def pastLimit (cfg : EventConfig) (s : EventState threads) (w : Fin threads) : EventState threads :=
  if cfg.rate then s.goto w .dequeue else s.ret w true

/-- Everything but the phase a signal or a broadcast leaves as it is. -/
def wake (ws : WorkerState) : WorkerState :=
  match ws.phase with
  | .waiting => { ws with phase := .relock }
  | _ => ws

/-- The next step of worker `w`, which may have to wait for the mutex. -/
def stepWorker (cfg : EventConfig) (s : EventState threads) (w : Fin threads)
    (raced : Option ℕ) : EventState threads :=
  match (s.workers w).phase with
  | .outside =>
    s.setWorker w { s.workers w with phase := .checkError, maxEvents := none, ptr := .null }
  | .checkError => if s.error then s.ret w false else s.goto w .checkTime
  | .checkTime => if timeLimitExceeded cfg s.now then s.ret w false else s.goto w .loadLimit
  | .loadLimit =>
    let s' := s.setWorker w { s.workers w with maxEvents := some s.maxEvents }
    if s.maxEvents > 0 then s'.goto w .draw else s'.pastLimit cfg w
  | .draw =>
    let s' := { s with nevents := s.nevents + 1 }
    if s.nevents ≥ (s.workers w).maxEvents.getD 0 then s'.ret w false else s'.pastLimit cfg w
  | .dequeue =>
    match s.ring with
    | i :: ring =>
      { s.setWorker w { s.workers w with phase := .queueTime, ptr := .dequeued i } with
        ring := ring }
    | [] =>
      match raced with
      | some i => s.setWorker w { s.workers w with phase := .loopError, ptr := .raced i }
      | none => s.goto w .loopError
  | .loopError => if s.error then s.goto w .queueTime else s.goto w .lock
  | .lock => if s.mutex = none then { s.goto w .condWait with mutex := some w } else s
  | .condWait => { s.goto w .waiting with mutex := none }
  | .waiting => s
  | .relock => if s.mutex = none then { s.goto w .unlock with mutex := some w } else s
  | .unlock => { s.goto w .recheckError with mutex := none }
  | .recheckError => if s.error then s.ret w false else s.goto w .recheckTime
  | .recheckTime => if timeLimitExceeded cfg s.now then s.ret w false else s.goto w .dequeue
  | .queueTime =>
    match (s.workers w).ptr with
    | .null => s.goto w .faulted
    | .raced i | .dequeued i =>
      (s.setWorker w { s.workers w with queueTime := s.now - s.queueArray i }).ret w true
  | .faulted => s

/-- The next step of the generator.  A signal wakes a worker that waits if there is one. -/
def stepGenerator (cfg : EventConfig) (s : EventState threads) (woken : Option (Fin threads)) :
    EventState threads :=
  match s.generator with
  | .absent => s
  | .checkTime =>
    { s with generator := if timeLimitExceeded cfg s.now then .broadcast else .store }
  | .store =>
    { s with queueArray := Function.update s.queueArray s.index s.now, generator := .enqueue }
  | .enqueue =>
    if s.ring.length + 1 < maxQueueLen then
      { s with ring := s.ring ++ [s.index], generator := .signal }
    else { s with generator := .setError }
  | .setError => { s with error := true, generator := .broadcast }
  | .broadcast => { s with workers := fun w => wake (s.workers w), generator := .terminated }
  | .signal =>
    let s' := { s with index := (s.index + 1) % maxQueueLen, generator := .checkTime }
    match woken with
    | some w =>
      if (s.workers w).phase = .waiting then s'.setWorker w (wake (s.workers w)) else s
    | none => if ∀ w, (s.workers w).phase ≠ .waiting then s' else s
  | .terminated => s

/-- One event.  What cannot happen in `s` leaves it alone. -/
def step (cfg : EventConfig) (s : EventState threads) : SchedEvent threads → EventState threads
  | .worker w raced => s.stepWorker cfg w raced
  | .generator woken => s.stepGenerator cfg woken
  | .spurious w => s.setWorker w (wake (s.workers w))
  | .fail => { s with error := true }
  | .tick ns => { s with now := s.now + ns }
  | .endWarmup => { s with maxEvents := cfg.maxEvents }

/-- Any interleaving, from the start barrier on. -/
def run (cfg : EventConfig) (events : List (SchedEvent threads)) : EventState threads :=
  events.foldl (step cfg) (eventInit cfg threads)

end EventState

end Sysbench
