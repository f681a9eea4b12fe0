/-
Workers and the event generator in rate mode.

Two things can go wrong around the queue, and each has its own window.

  * A worker whose dequeue has failed goes on to `queue_time` if it then finds the error
    flag set, with no event in hand.  `queueTime_ptr_iff` says that this is the only way.
  * A worker that has made up its mind to wait cannot be woken by a broadcast that comes
    before it does wait, and the generator's last broadcast is not repeated.
    `not_stranded_of_ready` says that no worker is left behind if at that moment none is
    on its way to the wait.
-/
import Sysbench.Lib.Schedule
import Sysbench.Model.EventLoop

namespace Sysbench

open Function Schedule

variable {threads : ℕ} {cfg : EventConfig} {s : EventState threads}

/-! ### What a worker's step can do -/

/-- The moves of a worker: its phase and `ptr` before and after, and the queue after. -/
inductive WorkerMove (cfg : EventConfig) (s : EventState threads) :
    WorkerPhase → EventPtr → WorkerPhase → EventPtr → List ℕ → Prop
  /-- It waits, for a signal or for the mutex, or it is gone. -/
  | stay (p ptr) : WorkerMove cfg s p ptr p ptr s.ring
  | enter (ptr) : WorkerMove cfg s .outside ptr .checkError .null s.ring
  /-- A return, from anywhere but a loop that has got no event. -/
  | ret (p ptr) (h : p ≠ .loopError) : WorkerMove cfg s p ptr .outside ptr s.ring
  | checkError (ptr) : WorkerMove cfg s .checkError ptr .checkTime ptr s.ring
  | checkTime (ptr) (h : timeLimitExceeded cfg s.now = false) :
      WorkerMove cfg s .checkTime ptr .loadLimit ptr s.ring
  | loadLimit (ptr) : WorkerMove cfg s .loadLimit ptr .draw ptr s.ring
  | pastLimit (p ptr) (h : p = .loadLimit ∨ p = .draw) :
      WorkerMove cfg s p ptr .dequeue ptr s.ring
  | dequeue (ptr) {i : ℕ} {ring : List ℕ} (h : s.ring = i :: ring) :
      WorkerMove cfg s .dequeue ptr .queueTime (.dequeued i) ring
  | dequeueFailed {ptr ptr' : EventPtr} (hptr : ptr' = ptr ∨ ∃ i, ptr' = .raced i)
      (h : s.ring = []) : WorkerMove cfg s .dequeue ptr .loopError ptr' s.ring
  | giveUp (ptr) (h : s.error = true) : WorkerMove cfg s .loopError ptr .queueTime ptr s.ring
  | loopOn (ptr) (h : s.error = false) : WorkerMove cfg s .loopError ptr .lock ptr s.ring
  | lock (ptr) : WorkerMove cfg s .lock ptr .condWait ptr s.ring
  | condWait (ptr) : WorkerMove cfg s .condWait ptr .waiting ptr s.ring
  | relock (ptr) : WorkerMove cfg s .relock ptr .unlock ptr s.ring
  | unlock (ptr) : WorkerMove cfg s .unlock ptr .recheckError ptr s.ring
  | recheckError (ptr) : WorkerMove cfg s .recheckError ptr .recheckTime ptr s.ring
  | recheckTime (ptr) (h : timeLimitExceeded cfg s.now = false) :
      WorkerMove cfg s .recheckTime ptr .dequeue ptr s.ring
  | fault : WorkerMove cfg s .queueTime .null .faulted .null s.ring

/-- A step of `w` moves `w` and leaves the rest of what the generator shares with it alone. -/
structure MovesTo (cfg : EventConfig) (s : EventState threads) (w : Fin threads)
    (s' : EventState threads) : Prop where
  error : s'.error = s.error
  now : s'.now = s.now
  generator : s'.generator = s.generator
  others : ∀ v, v ≠ w → s'.workers v = s.workers v
  move : WorkerMove cfg s (s.workers w).phase (s.workers w).ptr (s'.workers w).phase
    (s'.workers w).ptr s'.ring

variable {w : Fin threads} {p : WorkerPhase}

theorem movesTo_setWorker (hp : (s.workers w).phase = p) {ws : WorkerState}
    (h : WorkerMove cfg s p (s.workers w).ptr ws.phase ws.ptr s.ring) :
    MovesTo cfg s w (s.setWorker w ws) where
  error := rfl
  now := rfl
  generator := rfl
  others := fun v hv => update_of_ne hv _ _
  move := by
    show WorkerMove cfg s _ _ (update s.workers w ws w).phase
      (update s.workers w ws w).ptr s.ring
    rw [update_self, hp]
    exact h

theorem movesTo_refl (cfg : EventConfig) (s : EventState threads) (w : Fin threads) :
    MovesTo cfg s w s :=
  ⟨rfl, rfl, rfl, fun _ _ => rfl, .stay _ _⟩

variable {s' : EventState threads}

/-- What else is different in the state after the step does not matter. -/
theorem MovesTo.congr {s'' : EventState threads} (h : MovesTo cfg s w s')
    (herror : s''.error = s'.error) (hnow : s''.now = s'.now)
    (hgenerator : s''.generator = s'.generator) (hworkers : s''.workers = s'.workers)
    (hring : s''.ring = s'.ring) : MovesTo cfg s w s'' where
  error := herror.trans h.error
  now := hnow.trans h.now
  generator := hgenerator.trans h.generator
  others := hworkers ▸ h.others
  move := hworkers ▸ hring ▸ h.move

variable {p' : WorkerPhase}

theorem movesTo_goto (hp : (s.workers w).phase = p)
    (h : WorkerMove cfg s p (s.workers w).ptr p' (s.workers w).ptr s.ring) :
    MovesTo cfg s w (s.goto w p') :=
  movesTo_setWorker hp h

theorem movesTo_ret (hp : (s.workers w).phase = p) (h : p ≠ .loopError) (result : Bool) :
    MovesTo cfg s w (s.ret w result) :=
  (movesTo_goto hp (.ret _ _ h)).congr rfl rfl rfl rfl rfl

theorem workers_setWorker_goto (s : EventState threads) (w : Fin threads) (ws : WorkerState)
    (p : WorkerPhase) :
    ((s.setWorker w ws).goto w p).workers = (s.setWorker w { ws with phase := p }).workers := by
  show update (update s.workers w ws) w
    { update s.workers w ws w with phase := p } = _
  rw [update_self, update_idem]
  rfl

theorem setWorker_self (s : EventState threads) (w : Fin threads) :
    s.setWorker w (s.workers w) = s := by
  unfold EventState.setWorker
  rw [update_eq_self]

/-- Behind the limit, after `w` has stored the limit it loaded or drawn its ticket. -/
theorem movesTo_pastLimit (hp : (s.workers w).phase = p) (h : p = .loadLimit ∨ p = .draw)
    (ws : WorkerState) (hptr : ws.ptr = (s.workers w).ptr) (nevents : UInt64) :
    MovesTo cfg s w ({ s.setWorker w ws with nevents := nevents }.pastLimit cfg w) := by
  have hne : p ≠ .loopError := by
    rcases h with rfl | rfl <;> decide
  unfold EventState.pastLimit
  by_cases hrate : cfg.rate = true
  · rw [if_pos hrate]
    refine (movesTo_setWorker hp ?_).congr rfl rfl rfl
      (workers_setWorker_goto s w ws .dequeue) rfl
    rw [hptr]
    exact .pastLimit _ _ h
  · rw [if_neg hrate]
    refine (movesTo_setWorker hp ?_).congr rfl rfl rfl
      (workers_setWorker_goto s w ws .outside) rfl
    rw [hptr]
    exact .ret _ _ hne

theorem movesTo_loadLimit (hp : (s.workers w).phase = .loadLimit) (raced : Option ℕ) :
    MovesTo cfg s w (s.stepWorker cfg w raced) := by
  let ws := { s.workers w with maxEvents := some s.maxEvents }
  have hstep : s.stepWorker cfg w raced = if s.maxEvents > 0 then (s.setWorker w ws).goto w .draw
      else (s.setWorker w ws).pastLimit cfg w := by
    unfold EventState.stepWorker
    rw [hp]
  rw [hstep]
  by_cases hpos : s.maxEvents > 0
  · rw [if_pos hpos]
    refine (movesTo_setWorker hp ?_).congr rfl rfl rfl (workers_setWorker_goto s w ws .draw) rfl
    exact .loadLimit _
  · rw [if_neg hpos]
    exact movesTo_pastLimit hp (.inl rfl) ws rfl s.nevents

theorem movesTo_draw (hp : (s.workers w).phase = .draw) (raced : Option ℕ) :
    MovesTo cfg s w (s.stepWorker cfg w raced) := by
  have hstep : s.stepWorker cfg w raced = if s.nevents ≥ (s.workers w).maxEvents.getD 0
      then { s with nevents := s.nevents + 1 }.ret w false
      else { s with nevents := s.nevents + 1 }.pastLimit cfg w := by
    unfold EventState.stepWorker
    rw [hp]
  rw [hstep]
  by_cases hticket : s.nevents ≥ (s.workers w).maxEvents.getD 0
  · rw [if_pos hticket]
    exact (movesTo_goto hp (.ret _ _ (by decide))).congr rfl rfl rfl rfl rfl
  · rw [if_neg hticket]
    have hpast : MovesTo cfg s w
        ({ s.setWorker w (s.workers w) with nevents := s.nevents + 1 }.pastLimit cfg w) :=
      movesTo_pastLimit hp (.inr rfl) (s.workers w) rfl _
    rwa [setWorker_self] at hpast

theorem movesTo_dequeue (hp : (s.workers w).phase = .dequeue) (raced : Option ℕ) :
    MovesTo cfg s w (s.stepWorker cfg w raced) := by
  unfold EventState.stepWorker
  rw [hp]
  cases hring : s.ring with
  | cons i ring =>
    refine ⟨rfl, rfl, rfl, fun v hv => update_of_ne hv _ _, ?_⟩
    show WorkerMove cfg s _ _ (update s.workers w _ w).phase
      (update s.workers w _ w).ptr ring
    rw [update_self, hp]
    exact .dequeue _ hring
  | nil =>
    cases raced with
    | some i => exact movesTo_setWorker hp (.dequeueFailed (.inr ⟨i, rfl⟩) hring)
    | none => exact movesTo_goto hp (.dequeueFailed (.inl rfl) hring)

theorem movesTo_queueTime (hp : (s.workers w).phase = .queueTime) (raced : Option ℕ) :
    MovesTo cfg s w (s.stepWorker cfg w raced) := by
  have hret : ∀ ns, MovesTo cfg s w
      ((s.setWorker w { s.workers w with queueTime := ns }).ret w true) := by
    intro ns
    refine (movesTo_setWorker hp ?_).congr rfl rfl rfl (workers_setWorker_goto s w _ .outside) rfl
    exact .ret _ _ (by decide)
  unfold EventState.stepWorker
  rw [hp]
  cases hptr : (s.workers w).ptr with
  | null =>
    refine movesTo_goto hp ?_
    rw [hptr]
    exact .fault
  | raced i | dequeued i => exact hret _

/-- **Every step of a worker is one of its moves.** -/
theorem stepWorker_movesTo (cfg : EventConfig) (s : EventState threads) (w : Fin threads)
    (raced : Option ℕ) : MovesTo cfg s w (s.stepWorker cfg w raced) := by
  cases hp : (s.workers w).phase
  case loadLimit => exact movesTo_loadLimit hp raced
  case draw => exact movesTo_draw hp raced
  case dequeue => exact movesTo_dequeue hp raced
  case queueTime => exact movesTo_queueTime hp raced
  all_goals simp only [EventState.stepWorker, hp]
  case outside => exact movesTo_setWorker hp (.enter _)
  case waiting | faulted => exact movesTo_refl cfg s w
  case condWait => exact (movesTo_goto hp (.condWait _)).congr rfl rfl rfl rfl rfl
  case unlock => exact (movesTo_goto hp (.unlock _)).congr rfl rfl rfl rfl rfl
  all_goals split
  case checkError.isTrue | checkTime.isTrue | recheckError.isTrue | recheckTime.isTrue =>
    exact movesTo_ret hp (by decide) _
  case checkError.isFalse => exact movesTo_goto hp (.checkError _)
  case recheckError.isFalse => exact movesTo_goto hp (.recheckError _)
  case checkTime.isFalse hlimit =>
    exact movesTo_goto hp (.checkTime _ (Bool.eq_false_iff.mpr hlimit))
  case recheckTime.isFalse hlimit =>
    exact movesTo_goto hp (.recheckTime _ (Bool.eq_false_iff.mpr hlimit))
  case loopError.isTrue herror => exact movesTo_goto hp (.giveUp _ herror)
  case loopError.isFalse herror =>
    exact movesTo_goto hp (.loopOn _ (Bool.eq_false_iff.mpr herror))
  case lock.isTrue => exact (movesTo_goto hp (.lock _)).congr rfl rfl rfl rfl rfl
  case relock.isTrue => exact (movesTo_goto hp (.relock _)).congr rfl rfl rfl rfl rfl
  case lock.isFalse | relock.isFalse => exact movesTo_refl cfg s w

/-! ### Steps that are not a worker's own -/

/-- Other steps leave a worker alone or wake it. -/
theorem workers_stepGenerator (cfg : EventConfig) (s : EventState threads)
    (woken : Option (Fin threads)) (v : Fin threads) :
    (s.stepGenerator cfg woken).workers v = s.workers v ∨
      (s.stepGenerator cfg woken).workers v = EventState.wake (s.workers v) := by
  unfold EventState.stepGenerator
  cases s.generator with
  | absent | checkTime | store | setError | terminated => exact .inl rfl
  | enqueue =>
    refine .inl ?_
    dsimp only
    split <;> rfl
  | broadcast => exact .inr rfl
  | signal =>
    cases woken with
    | none =>
      refine .inl ?_
      dsimp only
      split <;> rfl
    | some w =>
      dsimp only
      split
      · by_cases hv : v = w
        · subst hv
          exact .inr (update_self ..)
        · exact .inl (update_of_ne hv ..)
      · exact .inl rfl

/-- What a step can do to a worker: its own moves, nothing, or wake it. -/
theorem workers_step (cfg : EventConfig) (s : EventState threads) (e : SchedEvent threads)
    (v : Fin threads) :
    (∃ raced, e = .worker v raced) ∨ (s.step cfg e).workers v = s.workers v ∨
      (s.step cfg e).workers v = EventState.wake (s.workers v) := by
  cases e with
  | worker w raced =>
    by_cases hv : v = w
    · exact .inl ⟨raced, hv ▸ rfl⟩
    · exact .inr (.inl ((stepWorker_movesTo cfg s w raced).others v hv))
  | generator woken => exact .inr (workers_stepGenerator cfg s woken v)
  | spurious w =>
    by_cases hv : v = w
    · subst hv
      exact .inr (.inr (update_self ..))
    · exact .inr (.inl (update_of_ne hv ..))
  | fail | tick ns | endWarmup => exact .inr (.inl rfl)

theorem ptr_wake (ws : WorkerState) : (EventState.wake ws).ptr = ws.ptr := by
  unfold EventState.wake
  split <;> rfl

/-- Waking moves a worker from `waiting` to `relock` and nothing else. -/
theorem phase_wake (ws : WorkerState) :
    (EventState.wake ws).phase = if ws.phase = .waiting then .relock else ws.phase := by
  unfold EventState.wake
  split
  · rename_i h
    rw [if_pos h]
  · rename_i h
    rw [if_neg h]

/-! ### The event in hand -/

/-- A worker that is about to compute `queue_time` holds the pointer of a successful dequeue. -/
def PtrDequeued (s : EventState threads) : Prop :=
  ∀ w, (s.workers w).phase = .queueTime → ∃ i, (s.workers w).ptr = .dequeued i

/-- No worker reads a set error flag in the loop condition after its dequeue has failed. -/
def LoopSeesNoError (s : EventState threads) : SchedEvent threads → Prop
  | .worker w _ => (s.workers w).phase = .loopError → s.error = false
  | _ => True

/-- A worker has an event in hand only from the dequeue to the end of the call. -/
def InHandOnlyAtEnd (s : EventState threads) : Prop :=
  ∀ w i, (s.workers w).ptr = .dequeued i →
    (s.workers w).phase = .queueTime ∨ (s.workers w).phase = .outside

variable {ptr ptr' : EventPtr} {ring : List ℕ}

theorem WorkerMove.inHand (h : WorkerMove cfg s p ptr p' ptr' ring)
    (hold : ∀ i, ptr = .dequeued i → p = .queueTime ∨ p = .outside) :
    ∀ i, ptr' = .dequeued i → p' = .queueTime ∨ p' = .outside := by
  intro i hi
  cases h with
  | stay => exact hold i hi
  | enter | fault => cases hi
  | ret => exact .inr rfl
  | dequeue | giveUp => exact .inl rfl
  | dequeueFailed hptr _ =>
    rcases hptr with rfl | ⟨j, rfl⟩
    · exact absurd (hold i hi) (by decide)
    · cases hi
  | pastLimit _ _ hp =>
    rcases hp with rfl | rfl <;> exact absurd (hold i hi) (by decide)
  | _ => exact absurd (hold i hi) (by decide)

theorem InHandOnlyAtEnd.step (h : InHandOnlyAtEnd s) (e : SchedEvent threads) :
    InHandOnlyAtEnd (s.step cfg e) := by
  intro v i hi
  rcases workers_step cfg s e v with ⟨raced, rfl⟩ | hsame | hwoken
  · exact (stepWorker_movesTo cfg s v raced).move.inHand (h v) i hi
  · rw [hsame] at hi ⊢
    exact h v i hi
  · rw [hwoken] at hi ⊢
    rw [ptr_wake] at hi
    rw [phase_wake]
    have hend := h v i hi
    split
    · rename_i hwaiting
      rw [hwaiting] at hend
      exact absurd hend (by decide)
    · exact hend

theorem WorkerMove.dequeued (h : WorkerMove cfg s p ptr p' ptr' ring)
    (hp : p = .loopError → s.error = false) (hold : p = .queueTime → ∃ i, ptr = .dequeued i) :
    p' = .queueTime → ∃ i, ptr' = .dequeued i := by
  intro hp'
  cases h with
  | stay => exact hold hp'
  | dequeue _ _ => exact ⟨_, rfl⟩
  | giveUp _ herror =>
    rw [hp rfl] at herror
    cases herror
  | _ => cases hp'

theorem ptrDequeued_step (hhand : InHandOnlyAtEnd s) (h : PtrDequeued s)
    (e : SchedEvent threads) : PtrDequeued (s.step cfg e) ↔ LoopSeesNoError s e := by
  refine ⟨?_, ?_⟩
  · -- A worker that leaves the loop because of an error has nothing in hand.
    intro hnext
    cases e with
    | worker w raced => ?_
    | _ => exact trivial
    intro hphase
    refine Bool.eq_false_iff.mpr fun herror => ?_
    have hstep : s.step cfg (.worker w raced) = s.goto w .queueTime := by
      simp only [EventState.step, EventState.stepWorker, hphase, herror, if_true]
    rw [hstep] at hnext
    have hself : (s.goto w .queueTime).workers w = { s.workers w with phase := .queueTime } :=
      update_self ..
    obtain ⟨i, hi⟩ := hnext w (by rw [hself])
    rw [hself] at hi
    have hend := hhand w i hi
    rw [hphase] at hend
    exact absurd hend (by decide)
  · intro hok v hv
    rcases workers_step cfg s e v with ⟨raced, rfl⟩ | hsame | hwoken
    · exact (stepWorker_movesTo cfg s v raced).move.dequeued hok (h v) hv
    · rw [hsame] at hv ⊢
      exact h v hv
    · rw [hwoken] at hv ⊢
      rw [ptr_wake]
      rw [phase_wake] at hv
      split at hv
      · cases hv
      · exact h v hv

/-- **When the dequeued pointer is one.**  In every interleaving, a worker that computes its
queue time holds the pointer of a successful dequeue in all states if and only if no step of the
interleaving is a worker reading a set error flag after its dequeue has failed. -/
theorem queueTime_ptr_iff (cfg : EventConfig) (events : List (SchedEvent threads)) :
    Always (EventState.step cfg) PtrDequeued (eventInit cfg threads) events ↔
      Along (EventState.step cfg) LoopSeesNoError (eventInit cfg threads) events := by
  refine always_iff_along (fun _ e h => h.step e) (fun _ e hhand h => ptrDequeued_step hhand h e)
    ?_ ?_
  · intro w i hi
    exact nomatch hi
  · intro w hw
    exact nomatch hw

/-- Rate mode with neither limit. -/
def rateConfig : EventConfig := ⟨true, 0, 0, false⟩

/-- One worker finds the queue empty, and another thread fails before it looks at the error
flag. -/
def errorInLoop : List (SchedEvent 1) :=
  List.replicate 5 (.worker 0 none) ++ [.fail, .worker 0 none]

/-- The worker leaves the loop with NULL, and the next step reads through it. -/
theorem queueTime_reads_null :
    ¬Always (EventState.step rateConfig) PtrDequeued (eventInit rateConfig 1) errorInLoop ∧
    ((EventState.run rateConfig errorInLoop).workers 0).phase = .queueTime ∧
    ((EventState.run rateConfig errorInLoop).workers 0).ptr = .null ∧
    ((EventState.run rateConfig (errorInLoop ++ [.worker 0 none])).workers 0).phase
      = .faulted := by
  have hphase : ((EventState.run rateConfig errorInLoop).workers 0).phase = .queueTime := rfl
  have hptr : ((EventState.run rateConfig errorInLoop).workers 0).ptr = .null := rfl
  refine ⟨?_, hphase, hptr, rfl⟩
  intro halways
  obtain ⟨i, hi⟩ := halways.last 0 hphase
  exact nomatch hi

/-! ### The last broadcast -/

/-- A worker that will try to dequeue before it looks at the time limit again. -/
def WorkerPhase.heading : WorkerPhase → Bool
  | .loadLimit | .draw | .dequeue => true
  | _ => false

/-- How many workers are heading for a dequeue. -/
def headingWorkers (s : EventState threads) : ℕ :=
  (Finset.univ.filter fun w => (s.workers w).phase.heading = true).card

/-- Nobody can start to wait after a broadcast sent now: no worker is between the decision to wait
and the wait, and unless there has been an error no dequeue has failed without the error flag
having been read, and there is an event in the queue for every worker heading for one. -/
def BroadcastReady (s : EventState threads) : Prop :=
  (∀ w, (s.workers w).phase ≠ .lock ∧ (s.workers w).phase ≠ .condWait) ∧
  (s.error = false →
    (∀ w, (s.workers w).phase ≠ .loopError) ∧ headingWorkers s ≤ s.ring.length)

/-- If the generator sends its last broadcast, the workers are ready for it. -/
def LastBroadcastReady (s : EventState threads) : SchedEvent threads → Prop
  | .generator _ => s.generator = .broadcast → BroadcastReady s
  | _ => True

instance (s : EventState threads) : Decidable (BroadcastReady s) :=
  inferInstanceAs (Decidable (_ ∧ _))

instance (s : EventState threads) : (e : SchedEvent threads) → Decidable (LastBroadcastReady s e)
  | .generator _ => inferInstanceAs (Decidable (_ → BroadcastReady s))
  | .worker _ _ => isTrue trivial
  | .spurious _ => isTrue trivial
  | .fail => isTrue trivial
  | .tick _ => isTrue trivial
  | .endWarmup => isTrue trivial

/-- The generator is not gone while a worker waits. -/
def NotStranded (s : EventState threads) : Prop :=
  s.generator = .terminated → ∀ w, (s.workers w).phase ≠ .waiting

/-- What a terminated generator leaves behind. -/
structure AfterBroadcast (cfg : EventConfig) (s : EventState threads) : Prop where
  phases : ∀ w, (s.workers w).phase ≠ .lock ∧ (s.workers w).phase ≠ .condWait ∧
    (s.workers w).phase ≠ .waiting
  time : s.error = false → timeLimitExceeded cfg s.now = true
  loop : s.error = false → ∀ w, (s.workers w).phase ≠ .loopError
  queued : s.error = false → headingWorkers s ≤ s.ring.length

/-- Without an error the generator broadcasts because of the time limit. -/
structure BroadcastInv (cfg : EventConfig) (s : EventState threads) : Prop where
  before : s.generator = .broadcast → s.error = false → timeLimitExceeded cfg s.now = true
  after : s.generator = .terminated → AfterBroadcast cfg s

theorem headingWorkers_le {s : EventState threads}
    (h : ∀ w, (s'.workers w).phase.heading = true → (s.workers w).phase.heading = true) :
    headingWorkers s' ≤ headingWorkers s :=
  Finset.card_le_card (Finset.monotone_filter_right _ fun w _ hw => h w hw)

theorem headingWorkers_lt {s : EventState threads}
    (h : ∀ w, (s'.workers w).phase.heading = true → (s.workers w).phase.heading = true)
    (hw : (s.workers w).phase.heading = true) (hw' : ¬(s'.workers w).phase.heading = true) :
    headingWorkers s' < headingWorkers s := by
  refine Finset.card_lt_card ((Finset.ssubset_iff_of_subset ?_).mpr ⟨w, ?_, ?_⟩)
  · exact Finset.monotone_filter_right _ fun v _ hv => h v hv
  · exact Finset.mem_filter.mpr ⟨Finset.mem_univ w, hw⟩
  · exact fun hmem => hw' (Finset.mem_filter.mp hmem).2

/-- Behind the time limit nobody begins to head for a dequeue. -/
theorem WorkerMove.heading (h : WorkerMove cfg s p ptr p' ptr' ring)
    (htime : timeLimitExceeded cfg s.now = true) :
    ring = s.ring ∧ (p'.heading = true → p.heading = true) ∨
    p = .dequeue ∧ p' = .queueTime ∧ s.ring.length = ring.length + 1 := by
  cases h with
  | stay => exact .inl ⟨rfl, id⟩
  | checkTime _ hlimit | recheckTime _ hlimit =>
    rw [hlimit] at htime
    cases htime
  | loadLimit => exact .inl ⟨rfl, fun _ => rfl⟩
  | pastLimit _ _ hp =>
    rcases hp with rfl | rfl <;> exact .inl ⟨rfl, fun _ => rfl⟩
  | dequeue _ hring => exact .inr ⟨rfl, rfl, congrArg List.length hring⟩
  | _ => exact .inl ⟨rfl, nofun⟩

/-- A worker that is heading for a dequeue finds an event. -/
theorem AfterBroadcast.ring_ne_nil (h : AfterBroadcast cfg s) (herror : s.error = false)
    (hw : (s.workers w).phase.heading = true) : s.ring ≠ [] := by
  intro hnil
  have hpos : 0 < headingWorkers s :=
    Finset.card_pos.mpr ⟨w, Finset.mem_filter.mpr ⟨Finset.mem_univ w, hw⟩⟩
  have hle := h.queued herror
  rw [hnil, List.length_nil] at hle
  omega

/-- A move does not lead to a wait if the loop has not got that far and dequeues do not fail. -/
theorem WorkerMove.noWait (h : WorkerMove cfg s p ptr p' ptr' ring)
    (hp : p ≠ .lock ∧ p ≠ .condWait ∧ p ≠ .waiting) (hloop : s.error = false → p ≠ .loopError)
    (hring : s.error = false → p.heading = true → s.ring ≠ []) :
    (p' ≠ .lock ∧ p' ≠ .condWait ∧ p' ≠ .waiting) ∧ (s.error = false → p' ≠ .loopError) := by
  cases h with
  | stay => exact ⟨hp, hloop⟩
  | dequeueFailed _ hnil =>
    refine ⟨by decide, ?_⟩
    intro herror
    exact absurd hnil (hring herror rfl)
  | loopOn _ herror => exact absurd rfl (hloop herror)
  | lock => exact absurd rfl hp.1
  | condWait => exact absurd rfl hp.2.1
  | _ => exact ⟨by decide, fun _ => by decide⟩

theorem AfterBroadcast.moves (h : AfterBroadcast cfg s) (hmoves : MovesTo cfg s w s') :
    AfterBroadcast cfg s' := by
  obtain ⟨hphase, hloop⟩ := hmoves.move.noWait (h.phases w) (fun herror => h.loop herror w)
    fun herror hw => h.ring_ne_nil herror hw
  refine ⟨?_, ?_, ?_, ?_⟩
  · intro v
    by_cases hv : v = w
    · subst hv
      exact hphase
    · rw [hmoves.others v hv]
      exact h.phases v
  · intro herror
    rw [hmoves.now]
    exact h.time (hmoves.error ▸ herror)
  · intro herror v
    rw [hmoves.error] at herror
    by_cases hv : v = w
    · subst hv
      exact hloop herror
    · rw [hmoves.others v hv]
      exact h.loop herror v
  · intro herror
    rw [hmoves.error] at herror
    have hqueued := h.queued herror
    rcases hmoves.move.heading (h.time herror) with ⟨hring, hhead⟩ | ⟨hp, hp', hlen⟩
    · have hle : headingWorkers s' ≤ headingWorkers s := by
        refine headingWorkers_le fun v hv => ?_
        by_cases hvw : v = w
        · subst hvw
          exact hhead hv
        · rwa [hmoves.others v hvw] at hv
      rw [hring]
      exact Nat.le_trans hle hqueued
    · have hhead : (s.workers w).phase.heading = true := by
        rw [hp]
        rfl
      have hhead' : ¬(s'.workers w).phase.heading = true := by
        rw [hp']
        decide
      have hlt : headingWorkers s' < headingWorkers s := by
        refine headingWorkers_lt (fun v hv => ?_) hhead hhead'
        by_cases hvw : v = w
        · subst hvw
          exact hhead
        · rwa [hmoves.others v hvw] at hv
      omega

theorem timeLimitExceeded_mono {now now' : ℕ} (hle : now ≤ now')
    (h : timeLimitExceeded cfg now = true) : timeLimitExceeded cfg now' = true := by
  simp only [timeLimitExceeded, Bool.and_eq_true, decide_eq_true_eq] at h ⊢
  exact ⟨h.1, Nat.le_trans h.2 hle⟩

theorem AfterBroadcast.of_ready (hready : BroadcastReady s)
    (htime : s.error = false → timeLimitExceeded cfg s.now = true) :
    AfterBroadcast cfg
      { s with workers := fun w => EventState.wake (s.workers w), generator := .terminated } := by
  obtain ⟨hcommitted, hclear⟩ := hready
  have hphase : ∀ w p, (EventState.wake (s.workers w)).phase = p → p ≠ .relock →
      (s.workers w).phase = p ∧ p ≠ .waiting := by
    intro w p hp hne
    rw [phase_wake] at hp
    split at hp
    · exact absurd hp.symm hne
    · rename_i hw
      exact ⟨hp, hp ▸ hw⟩
  refine ⟨?_, htime, ?_, ?_⟩
  · intro w
    refine ⟨?_, ?_, ?_⟩
    · intro hc
      exact (hcommitted w).1 (hphase w _ hc (by decide)).1
    · intro hc
      exact (hcommitted w).2 (hphase w _ hc (by decide)).1
    · intro hc
      exact (hphase w _ hc (by decide)).2 rfl
  · intro herror w hc
    exact (hclear herror).1 w (hphase w _ hc (by decide)).1
  · intro herror
    refine Nat.le_trans (headingWorkers_le fun w hw => ?_) (hclear herror).2
    have hw' : (EventState.wake (s.workers w)).phase.heading = true := hw
    rw [phase_wake] at hw'
    split at hw'
    · cases hw'
    · exact hw'

theorem BroadcastInv.stepGenerator (h : BroadcastInv cfg s) {woken : Option (Fin threads)}
    (hready : s.generator = .broadcast → BroadcastReady s) :
    BroadcastInv cfg (s.stepGenerator cfg woken) := by
  have hneither : ∀ s' : EventState threads, s'.generator ≠ .broadcast →
      s'.generator ≠ .terminated → BroadcastInv cfg s' :=
    fun s' hb ht => ⟨fun hc => absurd hc hb, fun hc => absurd hc ht⟩
  unfold EventState.stepGenerator
  cases hgen : s.generator with
  | absent | terminated => exact h
  | checkTime =>
    dsimp only
    split
    · rename_i hlimit
      exact ⟨fun _ _ => hlimit, nofun⟩
    · exact hneither _ nofun nofun
  | store => exact hneither _ nofun nofun
  | enqueue =>
    dsimp only
    split <;> exact hneither _ nofun nofun
  | setError => exact ⟨nofun, nofun⟩
  | broadcast =>
    refine ⟨nofun, fun _ => ?_⟩
    exact AfterBroadcast.of_ready (hready hgen) (h.before hgen)
  | signal =>
    dsimp only
    split <;>
      · split
        · exact hneither _ nofun nofun
        · exact h

theorem BroadcastInv.spurious (h : BroadcastInv cfg s) (w : Fin threads) :
    BroadcastInv cfg (s.setWorker w (EventState.wake (s.workers w))) := by
  refine ⟨h.before, ?_⟩
  intro hterminated
  have hafter := h.after hterminated
  have hsame : EventState.wake (s.workers w) = s.workers w := by
    unfold EventState.wake
    split
    · rename_i hw
      exact absurd hw (hafter.phases w).2.2
    · rfl
  rw [hsame, setWorker_self]
  exact hafter

theorem BroadcastInv.step (h : BroadcastInv cfg s) (e : SchedEvent threads)
    (hready : LastBroadcastReady s e) : BroadcastInv cfg (s.step cfg e) := by
  cases e with
  | worker w raced =>
    have hmoves := stepWorker_movesTo cfg s w raced
    refine ⟨?_, ?_⟩
    · intro hgen herror
      rw [show (s.step cfg (.worker w raced)).now = s.now from hmoves.now]
      exact h.before (hmoves.generator ▸ hgen) (hmoves.error ▸ herror)
    · intro hgen
      exact (h.after (hmoves.generator ▸ hgen)).moves hmoves
  | generator woken => exact h.stepGenerator hready
  | spurious w => exact h.spurious w
  | fail =>
    refine ⟨nofun, ?_⟩
    intro hgen
    exact ⟨(h.after hgen).phases, nofun, nofun,
      nofun⟩
  | tick ns =>
    refine ⟨?_, ?_⟩
    · intro hgen herror
      exact timeLimitExceeded_mono (Nat.le_add_right _ _) (h.before hgen herror)
    · intro hgen
      have hafter := h.after hgen
      exact ⟨hafter.phases,
        fun herror => timeLimitExceeded_mono (Nat.le_add_right _ _) (hafter.time herror),
        hafter.loop, hafter.queued⟩
  | endWarmup =>
    refine ⟨h.before, ?_⟩
    intro hgen
    have hafter := h.after hgen
    exact ⟨hafter.phases, hafter.time, hafter.loop, hafter.queued⟩

/-- **No worker is stranded by a broadcast it is ready for.**  In every interleaving in which the
generator sends its last broadcast only when no worker is between its decision to wait and the
wait, and, unless there has been an error, every worker still heading for a dequeue has an event
in the queue, there is no state in which the generator has terminated and a worker waits. -/
theorem not_stranded_of_ready (cfg : EventConfig) (events : List (SchedEvent threads))
    (h : Along (EventState.step cfg) LastBroadcastReady (eventInit cfg threads) events) :
    Always (EventState.step cfg) NotStranded (eventInit cfg threads) events := by
  have hinit : BroadcastInv cfg (eventInit cfg threads) := by
    have hgen : (eventInit cfg threads).generator = .checkTime ∨
        (eventInit cfg threads).generator = .absent := by
      show (if cfg.rate then GeneratorPhase.checkTime else .absent) = .checkTime ∨
        (if cfg.rate then GeneratorPhase.checkTime else .absent) = .absent
      split
      · exact .inl rfl
      · exact .inr rfl
    refine ⟨fun hc => ?_, fun hc => ?_⟩
    · rw [hc] at hgen
      exact absurd hgen (by decide)
    · rw [hc] at hgen
      exact absurd hgen (by decide)
  have hinv : Always (EventState.step cfg) (BroadcastInv cfg) (eventInit cfg threads) events :=
    always_of_along (fun _ e hs hready => hs.step e hready) hinit h
  exact hinv.mono fun s hs hterminated w => ((hs.after hterminated).phases w).2.2

/-- A time limit of one nanosecond. -/
def shortConfig : EventConfig := ⟨true, 1, 0, false⟩

/-- The worker waits before the generator reaches the time limit. -/
def waitsInTime : List (SchedEvent 1) :=
  List.replicate 8 (.worker 0 none) ++ [.tick 1, .generator none, .generator none]

theorem not_stranded_in_time :
    Along (EventState.step shortConfig) LastBroadcastReady (eventInit shortConfig 1)
      waitsInTime ∧
    NotStranded (EventState.run shortConfig waitsInTime) := by
  have hready : Along (EventState.step shortConfig) LastBroadcastReady
      (eventInit shortConfig 1) waitsInTime := by decide
  exact ⟨hready, (not_stranded_of_ready shortConfig waitsInTime hready).last⟩

/-- The worker has found the queue empty and no error; before it waits, the generator reaches
the time limit. -/
def waitsTooLate : List (SchedEvent 1) :=
  List.replicate 6 (.worker 0 none) ++
    [.tick 1, .generator none, .generator none, .worker 0 none, .worker 0 none]

/-- It then waits for a generator that is gone. -/
theorem stranded_too_late :
    ¬Always (EventState.step shortConfig) NotStranded (eventInit shortConfig 1) waitsTooLate ∧
    (EventState.run shortConfig waitsTooLate).generator = .terminated ∧
    ((EventState.run shortConfig waitsTooLate).workers 0).phase = .waiting := by
  have hgen : (EventState.run shortConfig waitsTooLate).generator = .terminated := rfl
  have hphase : ((EventState.run shortConfig waitsTooLate).workers 0).phase = .waiting := rfl
  refine ⟨?_, hgen, hphase⟩
  intro halways
  exact halways.last hgen 0 hphase

end Sysbench
