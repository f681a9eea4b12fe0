/-
What the workers read from the event queue.

The ring holds pointers into `queue_array`, a circular array that is one longer than the
ring: event number `k` has its timestamp at `k % MAX_QUEUE_LEN`.  The generator writes a
timestamp before it knows whether the ring has room, so the place it writes must not be one
of those still waiting; `CircularLog` is the argument.  `QueueRun` is an observer that notes
every timestamp stored by an enqueue that succeeds and every one read through a pointer.

A worker's dequeue and its read are one step here.  Nothing is claimed of a worker that is
held up between the two.
-/
import Sysbench.Lib.CircularLog
import Sysbench.Proofs.RateMode

namespace Sysbench

open List Function CircularLog

variable {threads : ℕ} {cfg : EventConfig} {w : Fin threads}

/-! ### The observer -/

/-- A state, and what has been stored and read. -/
structure QueueRun (threads : ℕ) where
  state : EventState threads
  /-- The timestamp stored last -/
  pending : ℕ
  /-- The timestamps of the events enqueued, in order -/
  stored : List ℕ
  /-- The timestamps read by workers, in order -/
  read : List ℕ

/-- What a worker at its next step reads through its pointer. -/
def readsThrough (s : EventState threads) (w : Fin threads) : List ℕ :=
  match (s.workers w).phase, (s.workers w).ptr with
  | .queueTime, .raced i => [s.queueArray i]
  | .queueTime, .dequeued i => [s.queueArray i]
  | _, _ => []

/-- One event, observed. -/
def observe (cfg : EventConfig) (q : QueueRun threads) (e : SchedEvent threads) :
    QueueRun threads where
  state := q.state.step cfg e
  pending :=
    match e with
    | .generator _ => if q.state.generator = .store then q.state.now else q.pending
    | _ => q.pending
  stored :=
    match e with
    | .generator _ =>
      if q.state.generator = .enqueue ∧ q.state.ring.length + 1 < maxQueueLen then
        q.stored ++ [q.pending]
      else q.stored
    | _ => q.stored
  read :=
    match e with
    | .worker w _ => q.read ++ readsThrough q.state w
    | _ => q.read

/-- One event with the ring as a FIFO, so that a dequeue that fails leaves `ptr` alone, and with
a dequeue that succeeds and the read behind it as one step. -/
def queueStep (cfg : EventConfig) (q : QueueRun threads) : SchedEvent threads → QueueRun threads
  | .worker w _ =>
    if (q.state.workers w).phase = .dequeue ∧ q.state.ring ≠ [] then
      observe cfg (observe cfg q (.worker w none)) (.worker w none)
    else observe cfg q (.worker w none)
  | e => observe cfg q e

/-- Any interleaving, from the start barrier on. -/
def queueRun (cfg : EventConfig) (events : List (SchedEvent threads)) : QueueRun threads :=
  events.foldl (queueStep cfg) ⟨eventInit cfg threads, 0, [], []⟩

/-! ### The invariant -/

/-- Event number `k` is at place `k` modulo the length of the array, and those that wait are the
last ones stored. -/
structure QueueInv (q : QueueRun threads) : Prop where
  ptr : ∀ w, (q.state.workers w).phase ≠ .outside → (q.state.workers w).ptr = .null
  length : q.stored.length = q.read.length + q.state.ring.length
  room : q.state.ring.length < maxQueueLen
  index : ∃ n, q.state.index = n % maxQueueLen ∧
    q.stored.length = if q.state.generator = .signal then n + 1 else n
  ring : q.state.ring = places maxQueueLen q.read.length q.state.ring.length
  delivered : q.read <+: q.stored
  holds : Holds maxQueueLen q.state.queueArray q.stored q.read.length
  pending : q.state.generator = .enqueue → q.state.queueArray q.state.index = q.pending

variable {q : QueueRun threads}

theorem queueInv_init (cfg : EventConfig) :
    QueueInv (⟨eventInit cfg threads, 0, [], []⟩ : QueueRun threads) := by
  have hgen : (eventInit cfg threads).generator = .checkTime ∨
      (eventInit cfg threads).generator = .absent := by
    unfold eventInit
    cases cfg.rate with
    | true => exact .inl rfl
    | false => exact .inr rfl
  have hsignal : (eventInit cfg threads).generator ≠ .signal := by
    rcases hgen with h | h <;> rw [h] <;> decide
  refine ⟨fun w _ => rfl, rfl, Nat.zero_lt_succ _, ⟨0, rfl, ?_⟩, rfl, prefix_rfl, ?_, ?_⟩
  · exact (if_neg hsignal).symm
  · intro k _ hk
    cases hk
  · intro henqueue
    rcases hgen with h | h <;> cases h.symm.trans henqueue

/-- Where the ring, the array and both lists stay as they are, the pointers, the index and the
timestamp stored last are left to show. -/
theorem QueueInv.of_queue (h : QueueInv q) {q' : QueueRun threads}
    (hptr : ∀ w, (q'.state.workers w).phase ≠ .outside → (q'.state.workers w).ptr = .null)
    (hring : q'.state.ring = q.state.ring)
    (harray : q'.state.queueArray = q.state.queueArray)
    (hstored : q'.stored = q.stored) (hread : q'.read = q.read)
    (hindex : ∃ n, q'.state.index = n % maxQueueLen ∧
      q.stored.length = if q'.state.generator = .signal then n + 1 else n)
    (hpending : q'.state.generator = .enqueue →
      q.state.queueArray q'.state.index = q'.pending) : QueueInv q' := by
  obtain ⟨-, hlength, hroom, -, hplaces, hdelivered, hholds, -⟩ := h
  refine ⟨hptr, ?_, ?_, ?_, ?_, ?_, ?_, ?_⟩
  · rwa [hstored, hread, hring]
  · rwa [hring]
  · rwa [hstored]
  · rwa [hread, hring]
  · rwa [hread, hstored]
  · rwa [harray, hstored, hread]
  · rwa [harray]

/-- Outside of the queue and the generator, only the pointers of the workers matter. -/
theorem QueueInv.congr (h : QueueInv q) {q' : QueueRun threads}
    (hptr : ∀ w, (q'.state.workers w).phase ≠ .outside → (q'.state.workers w).ptr = .null)
    (hring : q'.state.ring = q.state.ring) (hindex : q'.state.index = q.state.index)
    (harray : q'.state.queueArray = q.state.queueArray)
    (hgenerator : q'.state.generator = q.state.generator) (hpending : q'.pending = q.pending)
    (hstored : q'.stored = q.stored) (hread : q'.read = q.read) : QueueInv q' := by
  refine h.of_queue hptr hring harray hstored hread ?_ ?_
  · rw [hindex, hgenerator]
    exact h.index
  · rw [hgenerator, hindex, hpending]
    exact h.pending

theorem QueueInv.ptr_woken (h : QueueInv q)
    (hw : (EventState.wake (q.state.workers w)).phase ≠ .outside) :
    (EventState.wake (q.state.workers w)).ptr = .null := by
  rw [ptr_wake]
  refine h.ptr w fun hout => hw ?_
  rw [phase_wake, hout]
  rfl

/-! ### Workers -/

theorem stepWorker_array (cfg : EventConfig) (s : EventState threads) (w : Fin threads)
    (raced : Option ℕ) :
    (s.stepWorker cfg w raced).queueArray = s.queueArray ∧
      (s.stepWorker cfg w raced).index = s.index := by
  unfold EventState.stepWorker EventState.pastLimit
  cases (s.workers w).phase <;> dsimp only <;> repeat' split
  all_goals exact ⟨rfl, rfl⟩

/-- A move that does not touch the ring keeps the pointer NULL until the call ends. -/
theorem WorkerMove.null {s : EventState threads} {p p' : WorkerPhase} {ptr ptr' : EventPtr}
    {ring : List ℕ} (h : WorkerMove cfg s p ptr p' ptr' ring) (hp : p ≠ .dequeue)
    (hptr : p ≠ .outside → ptr = .null) : ring = s.ring ∧ (p' ≠ .outside → ptr' = .null) := by
  cases h with
  | stay => exact ⟨rfl, hptr⟩
  | enter => exact ⟨rfl, fun _ => rfl⟩
  | ret => exact ⟨rfl, fun hc => absurd rfl hc⟩
  | pastLimit _ _ hlimit =>
    refine ⟨rfl, fun _ => hptr ?_⟩
    rcases hlimit with rfl | rfl <;> decide
  | dequeue => exact absurd rfl hp
  | dequeueFailed => exact absurd rfl hp
  | fault => exact ⟨rfl, fun _ => rfl⟩
  | checkError | checkTime | loadLimit | giveUp | loopOn | lock | condWait | relock | unlock |
    recheckError | recheckTime => exact ⟨rfl, fun _ => hptr (by decide)⟩

theorem ptr_stepWorker (cfg : EventConfig) {s : EventState threads}
    (hptr : ∀ v, (s.workers v).phase ≠ .outside → (s.workers v).ptr = .null)
    (hring : (s.workers w).phase = .dequeue → s.ring = []) :
    (s.stepWorker cfg w none).ring = s.ring ∧
      ∀ v, ((s.stepWorker cfg w none).workers v).phase ≠ .outside →
        ((s.stepWorker cfg w none).workers v).ptr = .null := by
  have hmoves := stepWorker_movesTo cfg s w none
  have hmove : (s.stepWorker cfg w none).ring = s.ring ∧
      (((s.stepWorker cfg w none).workers w).phase ≠ .outside →
        ((s.stepWorker cfg w none).workers w).ptr = .null) := by
    by_cases hdequeue : (s.workers w).phase = .dequeue
    · have hstep : s.stepWorker cfg w none = s.goto w .loopError := by
        simp only [EventState.stepWorker, hdequeue, hring hdequeue]
      have hnull := hptr w (by rw [hdequeue]; decide)
      rw [hstep]
      simpa [EventState.goto, EventState.setWorker] using hnull
    · exact hmoves.move.null hdequeue (hptr w)
  refine ⟨hmove.1, fun v hv => ?_⟩
  by_cases hvw : v = w
  · subst hvw
    exact hmove.2 hv
  · rw [hmoves.others v hvw] at hv ⊢
    exact hptr v hv

/-- With NULL pointers there is nothing to read. -/
theorem QueueInv.readsThrough (h : QueueInv q) (w : Fin threads) :
    readsThrough q.state w = [] := by
  unfold Sysbench.readsThrough
  have hptr := h.ptr w
  split
  · rename_i hphase hraced
    rw [hraced, hphase] at hptr
    cases hptr (by decide)
  · rename_i hphase hdequeued
    rw [hdequeued, hphase] at hptr
    cases hptr (by decide)
  · rfl

theorem QueueInv.worker (h : QueueInv q)
    (hring : (q.state.workers w).phase = .dequeue → q.state.ring = []) :
    QueueInv (observe cfg q (.worker w none)) := by
  obtain ⟨hkeep, hptr⟩ := ptr_stepWorker cfg h.ptr hring
  obtain ⟨harray, hindex⟩ := stepWorker_array cfg q.state w none
  have hgenerator := (stepWorker_movesTo cfg q.state w none).generator
  refine h.congr hptr hkeep hindex harray hgenerator rfl rfl ?_
  show q.read ++ Sysbench.readsThrough q.state w = q.read
  rw [h.readsThrough w, append_nil]

/-- The dequeue and the read: the oldest event that waits is delivered. -/
theorem QueueInv.deliver (h : QueueInv q) {i : ℕ} {ring : List ℕ}
    (hphase : (q.state.workers w).phase = .dequeue) (hring : q.state.ring = i :: ring) :
    QueueInv (observe cfg (observe cfg q (.worker w none)) (.worker w none)) := by
  obtain ⟨hptr, hlength, hroom, hindex, hplaces, hdelivered, hholds, hpending⟩ := h
  rw [hring, length_cons] at hlength hroom hplaces
  obtain ⟨rfl, hrest⟩ := cons.inj hplaces
  have hlt : q.read.length < q.stored.length := by omega
  -- The state between the two halves, and the read it leads to.
  have hhalf : (observe cfg q (.worker w none)).state
      = { q.state.setWorker w { q.state.workers w with
            phase := .queueTime, ptr := .dequeued (q.read.length % maxQueueLen) } with
          ring := ring } := by
    show q.state.stepWorker cfg w none = _
    simp only [EventState.stepWorker, hphase, hring]
  have hfirst : Sysbench.readsThrough q.state w = [] := by
    rw [Sysbench.readsThrough, hphase]
  have hread : (observe cfg (observe cfg q (.worker w none)) (.worker w none)).read
      = q.read ++ [q.stored[q.read.length]] := by
    show (q.read ++ Sysbench.readsThrough q.state w) ++ Sysbench.readsThrough
      (observe cfg q (.worker w none)).state w = _
    rw [hfirst, hhalf, ← hholds _ (Nat.le_refl _) hlt]
    simp [Sysbench.readsThrough, EventState.setWorker]
  have hfinal : (observe cfg (observe cfg q (.worker w none)) (.worker w none)).state
      = (observe cfg q (.worker w none)).state.stepWorker cfg w none := rfl
  have hmoves := stepWorker_movesTo cfg (observe cfg q (.worker w none)).state w none
  obtain ⟨harray, hplace⟩ := stepWorker_array cfg (observe cfg q (.worker w none)).state w none
  have hgenerator := hmoves.generator
  rw [← hfinal] at hmoves harray hplace hgenerator
  -- The second half ends the call.
  have hdone : ((observe cfg (observe cfg q (.worker w none)) (.worker w none)).state.workers
        w).phase = .outside ∧
      (observe cfg (observe cfg q (.worker w none)) (.worker w none)).state.ring = ring := by
    rw [hfinal, hhalf]
    simp [EventState.stepWorker, EventState.setWorker, EventState.ret, EventState.goto]
  have hothers : ∀ v, v ≠ w →
      (observe cfg (observe cfg q (.worker w none)) (.worker w none)).state.workers v
        = q.state.workers v := by
    intro v hv
    rw [hmoves.others v hv, hhalf]
    exact update_of_ne hv _ _
  rw [hhalf] at harray hplace hgenerator
  refine ⟨?_, ?_, ?_, ?_, ?_, ?_, ?_, ?_⟩
  · intro v hv
    by_cases hvw : v = w
    · subst hvw
      exact absurd hdone.1 hv
    · rw [hothers v hvw] at hv ⊢
      exact hptr v hv
  · rw [hread, hdone.2, length_append, length_singleton]
    show q.stored.length = _
    omega
  · rw [hdone.2]
    omega
  · rw [hplace, hgenerator]
    exact hindex
  · rw [hread, hdone.2, length_append]
    exact hrest
  · rw [hread]
    exact prefix_concat_next hdelivered hlt
  · rw [hread, harray, length_append]
    exact hholds.pop
  · intro hgen
    rw [hgenerator] at hgen
    rw [harray, hplace]
    exact hpending hgen

/-! ### The generator -/

theorem QueueInv.ptr_generator (h : QueueInv q) (cfg : EventConfig)
    (woken : Option (Fin threads)) (v : Fin threads)
    (hv : ((q.state.stepGenerator cfg woken).workers v).phase ≠ .outside) :
    ((q.state.stepGenerator cfg woken).workers v).ptr = .null := by
  rcases workers_stepGenerator cfg q.state woken v with hsame | hwoken
  · rw [hsame] at hv ⊢
    exact h.ptr v hv
  · rw [hwoken] at hv ⊢
    exact h.ptr_woken hv

/-- The next place is free while the ring has not more entries than it can hold. -/
theorem QueueInv.store (h : QueueInv q) (hgen : q.state.generator = .store)
    (woken : Option (Fin threads)) : QueueInv (observe cfg q (.generator woken)) := by
  obtain ⟨n, hindex, hn⟩ := h.index
  have hlen := h.length
  have hroom := h.room
  have hptr := h.ptr_generator cfg woken
  rw [hgen] at hn
  subst hn
  have hstep : q.state.stepGenerator cfg woken = { q.state with
      queueArray := update q.state.queueArray q.state.index q.state.now
      generator := .enqueue } := by
    simp only [EventState.stepGenerator, hgen]
  have hstored : (observe cfg q (.generator woken)).stored = q.stored :=
    if_neg fun hc => by rw [hgen] at hc; cases hc.1
  have hpending : (observe cfg q (.generator woken)).pending = q.state.now := if_pos hgen
  have hstate : (observe cfg q (.generator woken)).state = q.state.stepGenerator cfg woken := rfl
  rw [hstep] at hstate
  refine ⟨hptr, ?_, ?_, ?_, ?_, ?_, ?_, ?_⟩
  · rw [hstored, hstate]
    exact hlen
  · rw [hstate]
    exact hroom
  · rw [hstored, hstate]
    exact ⟨q.stored.length, hindex, rfl⟩
  · rw [hstate]
    exact h.ring
  · rw [hstored]
    exact h.delivered
  · rw [hstored, hstate, hindex]
    exact h.holds.store (by omega) q.state.now
  · intro _
    rw [hstate, hpending]
    exact update_self _ _ _

theorem QueueInv.enqueue (h : QueueInv q) (hgen : q.state.generator = .enqueue)
    (woken : Option (Fin threads)) : QueueInv (observe cfg q (.generator woken)) := by
  obtain ⟨n, hindex, hn⟩ := h.index
  have hlen := h.length
  have hptr := h.ptr_generator cfg woken
  have hpend := h.pending hgen
  rw [hgen] at hn
  subst hn
  have hstate : (observe cfg q (.generator woken)).state = q.state.stepGenerator cfg woken := rfl
  by_cases hroom : q.state.ring.length + 1 < maxQueueLen
  · have hstored : (observe cfg q (.generator woken)).stored = q.stored ++ [q.pending] :=
      if_pos ⟨hgen, hroom⟩
    rw [show q.state.stepGenerator cfg woken
      = { q.state with ring := q.state.ring ++ [q.state.index], generator := .signal } by
        simp only [EventState.stepGenerator, hgen, if_pos hroom]] at hstate
    refine ⟨hptr, ?_, ?_, ?_, ?_, ?_, ?_, ?_⟩
    · rw [hstored, hstate]
      simp only [length_append, length_singleton, observe]
      omega
    · rw [hstate]
      simpa using hroom
    · rw [hstored, hstate]
      exact ⟨q.stored.length, hindex, by simp⟩
    · rw [hstate]
      show q.state.ring ++ [q.state.index] = places maxQueueLen q.read.length _
      rw [length_append, length_singleton, places_succ, ← h.ring, hindex, hlen]
    · rw [hstored]
      exact h.delivered.trans (prefix_append _ _)
    · rw [hstored, hstate]
      exact h.holds.push (hindex ▸ hpend)
    · rw [hstate]
      intro hc
      cases hc
  · -- The ring is full: the generator gives up, and what it has stored belongs to no event.
    have hstored : (observe cfg q (.generator woken)).stored = q.stored :=
      if_neg fun hc => hroom hc.2
    rw [show q.state.stepGenerator cfg woken = { q.state with generator := .setError } by
      simp only [EventState.stepGenerator, hgen, if_neg hroom]] at hstate
    refine h.of_queue hptr (by rw [hstate]) (by rw [hstate]) hstored rfl ?_ ?_
    · rw [hstate]
      exact ⟨q.stored.length, hindex, rfl⟩
    · rw [hstate]
      intro hc
      cases hc

/-- Behind the signal the generator goes on to the next place. -/
theorem QueueInv.signal (h : QueueInv q) (hgen : q.state.generator = .signal)
    (woken : Option (Fin threads)) : QueueInv (observe cfg q (.generator woken)) := by
  obtain ⟨n, hindex, hn⟩ := h.index
  have hptr := h.ptr_generator cfg woken
  rw [hgen] at hn
  have hstored : (observe cfg q (.generator woken)).stored = q.stored :=
    if_neg fun hc => by rw [hgen] at hc; cases hc.1
  have hpending : (observe cfg q (.generator woken)).pending = q.pending :=
    if_neg fun hc => by rw [hgen] at hc; cases hc
  have hstep : q.state.stepGenerator cfg woken = q.state ∨
      (q.state.stepGenerator cfg woken).ring = q.state.ring ∧
      (q.state.stepGenerator cfg woken).queueArray = q.state.queueArray ∧
      (q.state.stepGenerator cfg woken).index = (q.state.index + 1) % maxQueueLen ∧
      (q.state.stepGenerator cfg woken).generator = .checkTime := by
    simp only [EventState.stepGenerator, hgen]
    cases woken with
    | none | some w =>
      dsimp only
      split
      · exact .inr ⟨rfl, rfl, rfl, rfl⟩
      · exact .inl rfl
  have hstate : (observe cfg q (.generator woken)).state = q.state.stepGenerator cfg woken := rfl
  rcases hstep with hsame | ⟨hring, harray, hnext, hcheck⟩
  · rw [hsame] at hstate
    exact h.congr hptr (by rw [hstate]) (by rw [hstate]) (by rw [hstate]) (by rw [hstate])
      hpending hstored rfl
  · rw [← hstate] at hring harray hnext hcheck
    refine h.of_queue hptr hring harray hstored rfl ?_ ?_
    · rw [hnext, hcheck, hindex, Nat.mod_add_mod]
      exact ⟨n + 1, rfl, hn⟩
    · rw [hcheck]
      intro hc
      cases hc

theorem QueueInv.idle (h : QueueInv q) (woken : Option (Fin threads))
    (hring : (q.state.stepGenerator cfg woken).ring = q.state.ring)
    (harray : (q.state.stepGenerator cfg woken).queueArray = q.state.queueArray)
    (hindex : (q.state.stepGenerator cfg woken).index = q.state.index)
    (hbefore : q.state.generator ≠ .signal ∧ q.state.generator ≠ .store ∧
      q.state.generator ≠ .enqueue)
    (hafter : (q.state.stepGenerator cfg woken).generator ≠ .signal ∧
      (q.state.stepGenerator cfg woken).generator ≠ .enqueue) :
    QueueInv (observe cfg q (.generator woken)) := by
  obtain ⟨n, hplace, hn⟩ := h.index
  have hptr := h.ptr_generator cfg woken
  rw [if_neg hbefore.1] at hn
  have hstored : (observe cfg q (.generator woken)).stored = q.stored :=
    if_neg fun hc => hbefore.2.2 hc.1
  have hstate : (observe cfg q (.generator woken)).state = q.state.stepGenerator cfg woken := rfl
  rw [← hstate] at hring harray hindex hafter
  refine h.of_queue hptr hring harray hstored rfl ?_ fun hc => absurd hc hafter.2
  rw [hindex]
  exact ⟨n, hplace, by rw [if_neg hafter.1]; exact hn⟩

theorem QueueInv.generator (h : QueueInv q) (woken : Option (Fin threads)) :
    QueueInv (observe cfg q (.generator woken)) := by
  cases hgen : q.state.generator with
  | store => exact h.store hgen woken
  | enqueue => exact h.enqueue hgen woken
  | signal => exact h.signal hgen woken
  | checkTime =>
    have hstep : q.state.stepGenerator cfg woken = { q.state with
        generator := if timeLimitExceeded cfg q.state.now then .broadcast else .store } := by
      simp only [EventState.stepGenerator, hgen]
    have hnext : (q.state.stepGenerator cfg woken).generator ≠ .signal ∧
        (q.state.stepGenerator cfg woken).generator ≠ .enqueue := by
      rw [hstep]
      dsimp only
      split <;> decide
    refine h.idle woken ?_ ?_ ?_ (by rw [hgen]; decide) hnext
    all_goals rw [hstep]
  | absent | setError | broadcast | terminated =>
    refine h.idle woken ?_ ?_ ?_ (by rw [hgen]; decide) ?_
    all_goals simp [EventState.stepGenerator, hgen]

/-! ### Runs -/

theorem QueueInv.step (h : QueueInv q) (e : SchedEvent threads) :
    QueueInv (queueStep cfg q e) := by
  cases e with
  | worker w raced =>
    show QueueInv (if _ then _ else _)
    split
    · rename_i hdequeue
      obtain ⟨i, ring, hring⟩ := exists_cons_of_ne_nil hdequeue.2
      exact h.deliver hdequeue.1 hring
    · rename_i hdequeue
      refine h.worker fun hphase => ?_
      by_contra hne
      exact hdequeue ⟨hphase, hne⟩
  | generator woken => exact h.generator woken
  | spurious w =>
    refine h.congr (fun v hv => ?_) rfl rfl rfl rfl rfl rfl rfl
    replace hv : (update q.state.workers w (EventState.wake (q.state.workers w))
      v).phase ≠ .outside := hv
    show (update q.state.workers w (EventState.wake (q.state.workers w)) v).ptr = .null
    by_cases hvw : v = w
    · subst hvw
      rw [update_self] at hv ⊢
      exact h.ptr_woken hv
    · rw [update_of_ne hvw] at hv ⊢
      exact h.ptr v hv
  | fail | tick ns | endWarmup => exact h.congr h.ptr rfl rfl rfl rfl rfl rfl rfl

theorem queueInv_run (cfg : EventConfig) (events : List (SchedEvent threads)) :
    QueueInv (queueRun cfg events) :=
  Schedule.invariant (fun _ e h => h.step e) (queueInv_init cfg) events

/-- **The queue keeps its timestamps.**  In every interleaving of the generator with any number
of workers: the timestamps that workers have read are those of the first events enqueued, in
order; every other event enqueued still waits in the ring, with its own timestamp in the
place that its entry points to. -/
theorem queue_delivers_in_order (cfg : EventConfig) (events : List (SchedEvent threads)) :
    (queueRun cfg events).stored = (queueRun cfg events).read ++
      (queueRun cfg events).state.ring.map (queueRun cfg events).state.queueArray ∧
    (queueRun cfg events).state.ring.length < maxQueueLen ∧
    (queueRun cfg events).state.ring.Nodup := by
  have h := queueInv_run cfg events
  refine ⟨?_, h.room, ?_⟩
  · have hwaiting := h.holds.map_places h.length.symm
    rw [← h.ring] at hwaiting
    rw [hwaiting]
    exact (prefix_iff_eq_append.mp h.delivered).symm
  · rw [h.ring]
    exact nodup_places _ h.room.le

end Sysbench
