/-
The limit on the number of events under concurrency.

Without rate mode, time limit or errors a call of `sb_more_events` has one decision to
make: a call that loads a limit of zero returns true, and any other draws a ticket and
compares it.  Tickets are drawn atomically, so the calls that draw are numbered, and the
number of a call decides its result.  `LimitInv` says so of the calls that have returned.
The ticket counter has 64 bits; the account is exact for as long as it does not go round,
and `ticketsBelow` says what it is when it does.
-/
import Sysbench.Lib.Schedule
import Sysbench.Lib.Wrapping
import Sysbench.Model.EventLoop

namespace Sysbench

open List Function Wrapping

variable {threads : ℕ} {s : EventState threads}

/-- Did the call load a limit? -/
def isLimited (r : Option UInt64 × Bool) : Bool := r.1.getD 0 ≠ 0

/-- How many calls that loaded a limit have returned. -/
def limitedCalls (s : EventState threads) : ℕ := s.returned.countP isLimited

/-- How many of them returned true. -/
def grantedCalls (s : EventState threads) : ℕ := s.returned.countP fun r => isLimited r && r.2

/-- Where a worker can be without rate mode; before it draws it has loaded a limit. -/
def LimitPhase (cfg : EventConfig) (ws : WorkerState) : Prop :=
  match ws.phase with
  | .outside | .checkError | .checkTime | .loadLimit => True
  | .draw => ws.maxEvents = some cfg.maxEvents ∧ cfg.maxEvents ≠ 0
  | _ => False

structure LimitInv (cfg : EventConfig) (s : EventState threads) : Prop where
  error : s.error = false
  generator : s.generator = .absent
  limit : s.maxEvents = 0 ∨ s.maxEvents = cfg.maxEvents
  workers : ∀ w, LimitPhase cfg (s.workers w)
  nevents : s.nevents = UInt64.ofNat (limitedCalls s)
  granted : grantedCalls s = ticketsBelow 64 cfg.maxEvents.toNat (limitedCalls s)
  returned : ∀ r ∈ s.returned, r.1 = some 0 ∧ r.2 = true ∨
    r.1 = some cfg.maxEvents ∧ cfg.maxEvents ≠ 0

section Step

variable {cfg : EventConfig} {s : EventState threads}

theorem limitInv_init (cfg : EventConfig) (hrate : cfg.rate = false) :
    LimitInv cfg (eventInit cfg threads) := by
  refine ⟨rfl, ?_, ?_, fun _ => trivial, rfl, ?_, nofun⟩
  · show (if cfg.rate then GeneratorPhase.checkTime else .absent) = .absent
    rw [hrate]
    rfl
  · show (if cfg.warmup then (0 : UInt64) else cfg.maxEvents) = 0 ∨
      (if cfg.warmup then (0 : UInt64) else cfg.maxEvents) = cfg.maxEvents
    split
    · exact .inl rfl
    · exact .inr rfl
  · show 0 = ticketsBelow 64 _ 0
    rw [ticketsBelow_of_le cfg.maxEvents.toNat_lt (Nat.zero_le _), Nat.min_zero]

theorem LimitInv.setWorker (h : LimitInv cfg s) (w : Fin threads) {ws : WorkerState}
    (hws : LimitPhase cfg ws) : LimitInv cfg (s.setWorker w ws) where
  error := h.error
  generator := h.generator
  limit := h.limit
  workers := by
    intro v
    show LimitPhase cfg (update s.workers w ws v)
    by_cases hv : v = w
    · subst hv
      rw [update_self]
      exact hws
    · rw [update_of_ne hv]
      exact h.workers v
  nevents := h.nevents
  granted := h.granted
  returned := h.returned

/-- A call that loaded no limit returns true, and no ticket is used up. -/
theorem LimitInv.retUnlimited (h : LimitInv cfg s) (w : Fin threads)
    (hw : (s.workers w).maxEvents = some 0) : LimitInv cfg (s.ret w true) := by
  have hgoto : LimitInv cfg (s.goto w .outside) := h.setWorker w trivial
  have hlimited : limitedCalls (s.ret w true) = limitedCalls s := by
    show countP isLimited (_ :: s.returned) = _
    rw [hw]
    exact countP_cons_of_neg (by decide)
  have hgranted : grantedCalls (s.ret w true) = grantedCalls s := by
    show countP _ (_ :: s.returned) = _
    rw [hw]
    exact countP_cons_of_neg (by decide)
  refine ⟨h.error, h.generator, h.limit, hgoto.workers, ?_, ?_, ?_⟩
  · rw [hlimited]
    exact h.nevents
  · rw [hlimited, hgranted]
    exact h.granted
  · intro r hr
    rcases mem_cons.mp hr with rfl | hr
    · exact .inl ⟨hw, rfl⟩
    · exact h.returned r hr

/-- A call that draws returns what its ticket says. -/
theorem LimitInv.retDraw (h : LimitInv cfg s) (w : Fin threads)
    (hw : (s.workers w).maxEvents = some cfg.maxEvents) (hN : cfg.maxEvents ≠ 0) :
    LimitInv cfg
      ({ s with nevents := s.nevents + 1 }.ret w (decide (s.nevents < cfg.maxEvents))) := by
  let s' := { s with nevents := s.nevents + 1 }.ret w (decide (s.nevents < cfg.maxEvents))
  have hgoto : LimitInv cfg (s.goto w .outside) := h.setWorker w trivial
  have hlim : ∀ b, isLimited ((s.workers w).maxEvents, b) = true := by
    intro b
    rw [hw]
    exact decide_eq_true hN
  have hlimited : limitedCalls s' = limitedCalls s + 1 := countP_cons_of_pos (hlim _)
  have hticket : s.nevents < cfg.maxEvents ↔
      limitedCalls s % 2 ^ 64 < cfg.maxEvents.toNat := by
    rw [UInt64.lt_iff_toNat_lt, h.nevents, UInt64.toNat_ofNat']
  have hgranted : grantedCalls s'
      = grantedCalls s + if limitedCalls s % 2 ^ 64 < cfg.maxEvents.toNat then 1 else 0 := by
    show countP _ (((s.workers w).maxEvents, decide (s.nevents < cfg.maxEvents)) :: s.returned)
      = _
    rw [countP_cons, hlim, Bool.true_and]
    simp only [decide_eq_true_eq, hticket]
    rfl
  refine ⟨h.error, h.generator, h.limit, hgoto.workers, ?_, ?_, ?_⟩
  · show s.nevents + 1 = UInt64.ofNat (limitedCalls s')
    rw [hlimited, UInt64.ofNat_add, h.nevents]
    rfl
  · show grantedCalls s' = ticketsBelow 64 _ (limitedCalls s')
    rw [hgranted, hlimited, ticketsBelow_succ cfg.maxEvents.toNat_lt, h.granted]
  · intro r hr
    rcases mem_cons.mp hr with rfl | hr
    · exact .inr ⟨hw, hN⟩
    · exact h.returned r hr

/-- Loading the limit: with none the call returns at once, with one it is about to draw. -/
theorem LimitInv.load (h : LimitInv cfg s) (hrate : cfg.rate = false) {w : Fin threads}
    (hphase : (s.workers w).phase = .loadLimit) (raced : Option ℕ) :
    LimitInv cfg (s.stepWorker cfg w raced) := by
  let s' := s.setWorker w { s.workers w with maxEvents := some s.maxEvents }
  have hs' : LimitInv cfg s' := by
    refine h.setWorker w ?_
    unfold LimitPhase
    rw [hphase]
    trivial
  have hloaded : (s'.workers w).maxEvents = some s.maxEvents := by
    show (update s.workers w _ w).maxEvents = _
    rw [update_self]
  have hstep : s.stepWorker cfg w raced
      = if s.maxEvents > 0 then s'.goto w .draw else s'.pastLimit cfg w := by
    unfold EventState.stepWorker
    rw [hphase]
  rw [hstep]
  by_cases hpos : s.maxEvents > 0
  · have hne : s.maxEvents ≠ 0 := by
      intro hc
      rw [hc] at hpos
      exact absurd hpos (by decide)
    have hlimit : s.maxEvents = cfg.maxEvents := h.limit.resolve_left hne
    rw [if_pos hpos]
    refine hs'.setWorker w ?_
    exact ⟨hloaded.trans (congrArg some hlimit), hlimit ▸ hne⟩
  · have hzero : s.maxEvents = 0 := UInt64.le_antisymm (UInt64.not_lt.mp hpos) UInt64.zero_le
    rw [if_neg hpos, EventState.pastLimit, hrate]
    exact hs'.retUnlimited w (hloaded.trans (congrArg some hzero))

theorem LimitInv.draw (h : LimitInv cfg s) (hrate : cfg.rate = false) {w : Fin threads}
    (hphase : (s.workers w).phase = .draw) (raced : Option ℕ) :
    LimitInv cfg (s.stepWorker cfg w raced) := by
  have hw := h.workers w
  unfold LimitPhase at hw
  rw [hphase] at hw
  obtain ⟨hloaded, hN⟩ := hw
  have hret := h.retDraw w hloaded hN
  simp only [EventState.stepWorker, hphase, hloaded, Option.getD_some]
  by_cases hlt : s.nevents < cfg.maxEvents
  · rw [if_neg (UInt64.not_le.mpr hlt), EventState.pastLimit, hrate]
    rwa [decide_eq_true hlt] at hret
  · rw [if_pos (UInt64.not_lt.mp hlt)]
    rwa [decide_eq_false hlt] at hret

theorem LimitInv.stepWorker (h : LimitInv cfg s) (hrate : cfg.rate = false)
    (htime : cfg.maxTimeNs = 0) (w : Fin threads) (raced : Option ℕ) :
    LimitInv cfg (s.stepWorker cfg w raced) := by
  have hw := h.workers w
  unfold LimitPhase at hw
  cases hphase : (s.workers w).phase with
  | outside =>
    simp only [EventState.stepWorker, hphase]
    exact h.setWorker w trivial
  | checkError =>
    simp only [EventState.stepWorker, hphase, h.error]
    exact h.setWorker w trivial
  | checkTime =>
    have hlimit : timeLimitExceeded cfg s.now = false := by
      unfold timeLimitExceeded
      rw [htime]
      rfl
    simp only [EventState.stepWorker, hphase, hlimit]
    exact h.setWorker w trivial
  | loadLimit => exact h.load hrate hphase raced
  | draw => exact h.draw hrate hphase raced
  | _ =>
    rw [hphase] at hw
    exact hw.elim

theorem LimitInv.step (h : LimitInv cfg s) (hrate : cfg.rate = false) (htime : cfg.maxTimeNs = 0)
    {e : SchedEvent threads} (he : e ≠ .fail) : LimitInv cfg (s.step cfg e) := by
  cases e with
  | worker w raced => exact h.stepWorker hrate htime w raced
  | generator woken =>
    have hsame : s.stepGenerator cfg woken = s := by
      simp only [EventState.stepGenerator, h.generator]
    show LimitInv cfg (s.stepGenerator cfg woken)
    rw [hsame]
    exact h
  | spurious w =>
    have hsame : EventState.wake (s.workers w) = s.workers w := by
      have hw := h.workers w
      unfold LimitPhase at hw
      unfold EventState.wake
      split
      · rename_i hphase
        rw [hphase] at hw
        exact hw.elim
      · rfl
    refine h.setWorker w ?_
    rw [hsame]
    exact h.workers w
  | fail => exact absurd rfl he
  | tick ns => exact ⟨h.error, h.generator, h.limit, h.workers, h.nevents, h.granted, h.returned⟩
  | endWarmup =>
    exact ⟨h.error, h.generator, .inr rfl, h.workers, h.nevents, h.granted, h.returned⟩

end Step

theorem limitInv_run (cfg : EventConfig) (hrate : cfg.rate = false) (htime : cfg.maxTimeNs = 0)
    (events : List (SchedEvent threads)) (hfail : SchedEvent.fail ∉ events) :
    LimitInv cfg (EventState.run cfg events) := by
  have hfold : ∀ s : EventState threads, LimitInv cfg s →
      LimitInv cfg (events.foldl (EventState.step cfg) s) := by
    induction events with
    | nil =>
      intro s hs
      exact hs
    | cons e events ih =>
      intro s hs
      have he : e ≠ .fail := fun hc => hfail (hc ▸ mem_cons_self)
      exact ih (fun hc => hfail (mem_cons_of_mem _ hc)) _ (hs.step hrate htime he)
  exact hfold _ (limitInv_init cfg hrate)

/-- **The event limit under concurrency.**  Without rate mode, time limit and errors, and with
the limit set from the start or at any point by the end of the warm-up: a call that loads zero
returns true and draws no ticket; of the calls that load the limit, as many return true as
tickets show a number below it, and up to 2^64 calls these are the smaller of the limit and
their number. -/
theorem event_limit_exact (cfg : EventConfig) (hrate : cfg.rate = false)
    (htime : cfg.maxTimeNs = 0) (events : List (SchedEvent threads))
    (hfail : SchedEvent.fail ∉ events) :
    (∀ r ∈ (EventState.run cfg events).returned, r.1 = some 0 ∨ r.1 = some cfg.maxEvents) ∧
    (∀ r ∈ (EventState.run cfg events).returned, r.1 = some 0 → r.2 = true) ∧
    (EventState.run cfg events).nevents.toNat
      = limitedCalls (EventState.run cfg events) % 2 ^ 64 ∧
    grantedCalls (EventState.run cfg events)
      = ticketsBelow 64 cfg.maxEvents.toNat (limitedCalls (EventState.run cfg events)) ∧
    (limitedCalls (EventState.run cfg events) ≤ 2 ^ 64 →
      grantedCalls (EventState.run cfg events)
        = min cfg.maxEvents.toNat (limitedCalls (EventState.run cfg events))) := by
  have hinv := limitInv_run cfg hrate htime events hfail
  refine ⟨?_, ?_, ?_, hinv.granted, ?_⟩
  · intro r hr
    rcases hinv.returned r hr with ⟨hzero, -⟩ | ⟨hlimit, -⟩
    · exact .inl hzero
    · exact .inr hlimit
  · intro r hr hzero
    rcases hinv.returned r hr with ⟨-, htrue⟩ | ⟨hlimit, hN⟩
    · exact htrue
    · rw [hzero, Option.some.injEq] at hlimit
      exact absurd hlimit.symm hN
  · rw [hinv.nevents, UInt64.toNat_ofNat']
  · intro hle
    rw [hinv.granted, ticketsBelow_of_le cfg.maxEvents.toNat_lt hle]

/-- A call while the main thread ends the warm-up, and two more. -/
theorem event_limit_exact_warmup :
    SchedEvent.fail ∉ List.replicate 4 (.worker (0 : Fin 1) none) ++ .endWarmup ::
      List.replicate 10 (.worker 0 none) ∧
    grantedCalls (EventState.run ⟨false, 0, 1, true⟩ (List.replicate 4 (.worker (0 : Fin 1) none) ++
      .endWarmup :: List.replicate 10 (.worker 0 none))) = 1 := by
  have hfail : SchedEvent.fail ∉ List.replicate 4 (.worker (0 : Fin 1) none) ++ .endWarmup ::
      List.replicate 10 (.worker 0 none) := by simp
  refine ⟨hfail, ?_⟩
  have h := (event_limit_exact ⟨false, 0, 1, true⟩ rfl rfl _ hfail).2.2.2.1
  exact h

/-! ### A counter that has gone round -/

section Wrap

/-- A call of worker `w` that draws a ticket, from its entry to its return. -/
def callEvents (w : Fin threads) : List (SchedEvent threads) :=
  List.replicate 5 (.worker w none)

/-- The workers are outside, the limit is set, and no error has occurred. -/
structure BetweenCalls (cfg : EventConfig) (s : EventState threads) : Prop where
  error : s.error = false
  maxEvents : s.maxEvents = cfg.maxEvents
  outside : ∀ w, (s.workers w).phase = .outside

section Calls

variable {cfg : EventConfig} (hrate : cfg.rate = false) (htime : cfg.maxTimeNs = 0)
  (hN : cfg.maxEvents > 0)
include hrate htime hN

theorem foldl_callEvents (h : BetweenCalls cfg s) (w : Fin threads) :
    ∃ ws b, ws.phase = .outside ∧ (callEvents w).foldl (EventState.step cfg) s
      = { s with
          nevents := s.nevents + 1
          workers := update s.workers w ws
          returned := (some cfg.maxEvents, b) :: s.returned } := by
  have hlimit : timeLimitExceeded cfg s.now = false := by
    unfold timeLimitExceeded
    rw [htime]
    rfl
  by_cases hticket : cfg.maxEvents ≤ s.nevents
  · refine ⟨⟨.outside, some cfg.maxEvents, .null, (s.workers w).queueTime⟩, false, rfl, ?_⟩
    simp [callEvents, replicate, EventState.step, EventState.stepWorker, EventState.goto,
      EventState.setWorker, EventState.ret, h.outside w, h.error, h.maxEvents, hlimit, hN, hticket]
  · refine ⟨⟨.outside, some cfg.maxEvents, .null, (s.workers w).queueTime⟩, true, rfl, ?_⟩
    simp [callEvents, replicate, EventState.step, EventState.stepWorker, EventState.goto,
      EventState.setWorker, EventState.ret, EventState.pastLimit, hrate, h.outside w, h.error,
      h.maxEvents, hlimit, hN, hticket]

theorem BetweenCalls.call (h : BetweenCalls cfg s) (w : Fin threads) :
    BetweenCalls cfg ((callEvents w).foldl (EventState.step cfg) s) ∧
    limitedCalls ((callEvents w).foldl (EventState.step cfg) s) = limitedCalls s + 1 := by
  obtain ⟨ws, b, hws, hfold⟩ := foldl_callEvents hrate htime hN h w
  rw [hfold]
  refine ⟨⟨h.error, h.maxEvents, ?_⟩, ?_⟩
  · intro v
    show (update s.workers w ws v).phase = .outside
    by_cases hv : v = w
    · subst hv
      rw [update_self, hws]
    · rw [update_of_ne hv]
      exact h.outside v
  · have hlim : isLimited (some cfg.maxEvents, b) = true := by
      refine decide_eq_true fun hc => ?_
      rw [show cfg.maxEvents = 0 from hc] at hN
      exact absurd hN (by decide)
    exact countP_cons_of_pos hlim

theorem BetweenCalls.calls (w : Fin threads) (n : ℕ)
    (h : BetweenCalls cfg s) :
    BetweenCalls cfg ((replicate n (callEvents w)).flatten.foldl (EventState.step cfg) s) ∧
    limitedCalls ((replicate n (callEvents w)).flatten.foldl (EventState.step cfg) s)
      = limitedCalls s + n := by
  induction n generalizing s with
  | zero => exact ⟨h, rfl⟩
  | succ n ih =>
    obtain ⟨hone, hcount⟩ := h.call hrate htime hN w
    obtain ⟨hall, hcounts⟩ := ih hone
    rw [replicate_succ, flatten_cons, foldl_append]
    refine ⟨hall, ?_⟩
    omega

end Calls

/-- `--events=-1`: the option is read as an int and stored in 64 bits. -/
def wrapConfig : EventConfig := ⟨false, 0, 18446744073709551615, false⟩

/-- The first worker calls until it has got false, which takes 2^64 calls, and then the second
worker calls once. -/
def wrapEvents : List (SchedEvent 2) :=
  (List.replicate (2 ^ 64) (callEvents ⟨0, Nat.zero_lt_two⟩)).flatten ++
    callEvents ⟨1, Nat.one_lt_two⟩

/-- The second worker's ticket shows zero again, and one call more is granted than allowed. -/
theorem event_limit_wraps :
    SchedEvent.fail ∉ wrapEvents ∧ wrapConfig.maxEvents.toNat = 2 ^ 64 - 1 ∧
    limitedCalls (EventState.run wrapConfig wrapEvents) = 2 ^ 64 + 1 ∧
    grantedCalls (EventState.run wrapConfig wrapEvents) = 2 ^ 64 := by
  have hfail : SchedEvent.fail ∉ wrapEvents := by
    intro hmem
    rcases mem_append.mp hmem with hmem | hmem
    · obtain ⟨call, hcall, hmem⟩ := mem_flatten.mp hmem
      rw [eq_of_mem_replicate hcall] at hmem
      cases eq_of_mem_replicate hmem
    · cases eq_of_mem_replicate hmem
  have hinit : BetweenCalls wrapConfig (eventInit wrapConfig 2) := ⟨rfl, rfl, fun _ => rfl⟩
  obtain ⟨hfirst, hcounts⟩ := hinit.calls rfl rfl (by decide) ⟨0, Nat.zero_lt_two⟩ (2 ^ 64)
  have hlimited : limitedCalls (EventState.run wrapConfig wrapEvents) = 2 ^ 64 + 1 := by
    rw [EventState.run, wrapEvents, foldl_append,
      (hfirst.call rfl rfl (by decide) ⟨1, Nat.one_lt_two⟩).2, hcounts]
    rfl
  refine ⟨hfail, rfl, hlimited, ?_⟩
  rw [(limitInv_run wrapConfig rfl rfl wrapEvents hfail).granted, hlimited]
  decide

end Wrap

end Sysbench
