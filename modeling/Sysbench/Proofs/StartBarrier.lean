/-
All or nothing: what the parties at the start barrier agree on.

A run goes through three stages.  While the parties gather, nobody has left the barrier,
and the count is the number of those that have not passed it yet.  When it drops to zero
everybody has arrived, so every failed `thread_init` has left its mark in the error flag
before the callback looks at it.  After the callback the verdict stands: the barrier's
own error flag is set if and only if some `thread_init` failed, and every result handed
out follows it.

The verdict is also reached.  `stuck_started` says that a state in which no party can
move is one in which all have got through, and `startRank_step` that a run without
spurious wake-ups cannot go on forever.
-/
import Mathlib.Algebra.Order.BigOperators.Group.Finset
import Sysbench.Lib.Mutex
import Sysbench.Lib.Schedule
import Sysbench.Lib.Wrapping
import Sysbench.Model.StartBarrier

namespace Sysbench

open Function Schedule StartState

variable {threads : ℕ} {cfg : StartConfig threads} {s : StartState threads}

/-! ### The mutex -/

/-- The phases in which a party holds the mutex. -/
def PartyPhase.holding : PartyPhase → Bool
  | .decrement | .release | .callback | .condWait _ | .recheck _ | .unlock _ => true
  | _ => false

/-- The mutex is held by whoever is in the middle of its critical section. -/
abbrev MutexInv (s : StartState threads) : Prop := Mutex.Held PartyPhase.holding s.phase s.mutex

variable {p : Party threads}

theorem holding_wake (q : PartyPhase) : (wake q).holding = q.holding := by
  cases q <;> rfl

theorem holding_afterInit (cfg : StartConfig threads) (p : Party threads) :
    (afterInit cfg p).holding = false := by
  cases p with
  | worker i =>
    show (if cfg.initOk i then PartyPhase.lock else .failing).holding = _
    split <;> rfl
  | main | generator => rfl

theorem holding_afterWait (cfg : StartConfig threads) (res : ℤ) (p : Party threads) :
    (afterWait cfg res p).holding = false := by
  cases p with
  | worker i =>
    show (if cfg.initOk i ∧ 0 ≤ res then PartyPhase.running else .exited).holding = _
    split <;> rfl
  | main | generator => rfl

theorem mutexInv_stepParty (h : MutexInv s) (p : Party threads) : MutexInv (s.stepParty cfg p) := by
  unfold StartState.stepParty
  cases hp : s.phase p with
  | absent | waiting _ | running | exited => exact h
  | starting => exact h.keep p (by rw [hp, holding_afterInit]; rfl)
  | failing => exact h.keep p (by rw [hp]; rfl)
  | lock | relock _ =>
    dsimp only
    split
    · rename_i hfree
      exact h.take p hfree rfl
    · exact h
  | decrement =>
    refine h.keep p ?_
    rw [hp]
    split <;> rfl
  | release =>
    refine (h.congr fun q => holding_wake (s.phase q)).keep p ?_
    rw [hp]
    rfl
  | callback =>
    dsimp only
    unfold StartState.callback
    split <;> exact h.keep p (by rw [hp]; rfl)
  | recheck serial =>
    dsimp only
    split <;> exact h.keep p (by rw [hp]; rfl)
  | condWait _ | unlock _ => exact h.give p (by rw [hp]; rfl) rfl
  | returned res => exact h.keep p (by rw [hp, holding_afterWait]; rfl)

theorem mutexInv_init (cfg : StartConfig threads) : MutexInv (startInit cfg) := by
  intro p
  refine ⟨fun hc => ?_, nofun⟩
  have hphase : (startInit cfg).phase p = .absent ∨ (startInit cfg).phase p = .starting := by
    show (if _ then _ else _) = _ ∨ (if _ then _ else _) = _
    split
    · exact .inl rfl
    · exact .inr rfl
  rcases hphase with hphase | hphase <;>
    · rw [hphase] at hc
      cases hc

/-! ### Counting -/

theorem sum_phase_update (f : PartyPhase → ℕ) (phase : Party threads → PartyPhase)
    (p : Party threads) (q : PartyPhase) :
    ∑ r, f (update phase p q r) + f (phase p) = ∑ r, f (phase r) + f q := by
  have hupdate : (fun r => f (update phase p q r))
      = update (fun r => f (phase r)) p (f q) := by
    funext r
    exact apply_update (fun _ => f) phase p q r
  have hsum := Wrapping.sum_update (fun r => f (phase r)) p (f q)
  rw [← hupdate] at hsum
  exact hsum

/-- One for a party that has not decremented the count yet. -/
def PartyPhase.pending : PartyPhase → ℕ
  | .starting | .failing | .lock | .decrement => 1
  | _ => 0

def pendingParties (s : StartState threads) : ℕ := ∑ p, (s.phase p).pending

theorem pending_eq_zero (h : pendingParties s = 0) (p : Party threads) :
    (s.phase p).pending = 0 :=
  (Finset.sum_eq_zero_iff.mp h) p (Finset.mem_univ p)

theorem sum_parties (f : Party threads → ℕ) :
    ∑ p, f p = (∑ i, f (.worker i)) + (f .main + f .generator) := by
  rw [← (Party.equiv threads).sum_comp, Fintype.sum_sum_type]
  rfl

/-! ### The stages -/

/-- No `thread_init` fails. -/
def AllOk (cfg : StartConfig threads) : Prop := ∀ i, cfg.initOk i = true

/-- Where a party can be while the parties gather. -/
def GatherPhase (cfg : StartConfig threads) (p : Party threads) : PartyPhase → Prop
  | .absent => p = .generator
  | .starting | .lock | .decrement | .release => True
  | .failing => ∃ i, p = .worker i ∧ cfg.initOk i = false
  | .condWait serial | .waiting serial | .relock serial | .recheck serial => serial = 0
  | _ => False

/-- Not everybody has arrived, or the last to arrive has not released the others yet. -/
structure Gathering (cfg : StartConfig threads) (s : StartState threads) : Prop where
  serial : s.serial = 0
  callbacks : s.callbacks = 0
  barrierError : s.barrierError = false
  error_sound : s.error = true → ¬AllOk cfg
  error_complete : ∀ i, cfg.initOk i = false → s.phase (.worker i) ≠ .starting →
    s.phase (.worker i) ≠ .failing → s.error = true
  phases : ∀ p, GatherPhase cfg p (s.phase p)
  count : s.count = pendingParties s
  last : s.count = 0 ↔ ∃ p, s.phase p = .release

/-- Everybody has arrived, and the last to arrive is about to call the callback. -/
structure Calling (cfg : StartConfig threads) (s : StartState threads) : Prop where
  serial : s.serial = 1
  callbacks : s.callbacks = 0
  barrierError : s.barrierError = false
  error : s.error = true ↔ ¬AllOk cfg
  phases : ∃ p, s.phase p = .callback ∧
    ∀ q, q ≠ p → s.phase q = .relock 0 ∨ s.phase q = .absent ∧ q = .generator

/-- Where a party can be meanwhile. -/
def CallingPhase (p : Party threads) : PartyPhase → Prop
  | .absent => p = .generator
  | .relock serial => serial = 0
  | .callback => True
  | _ => False

variable {q : PartyPhase}

theorem Calling.phase_of (h : Calling cfg s) (hp : s.phase p = q) : CallingPhase p q := by
  obtain ⟨p', hp', hothers⟩ := h.phases
  rw [← hp]
  by_cases hpp : p = p'
  · rw [hpp, hp']
    trivial
  · rcases hothers p hpp with hp | ⟨hp, hgen⟩
    · rw [hp]
      rfl
    · rw [hp]
      exact hgen

/-- Where a party can be once the callback has been called, and what it has been told. -/
def OpenedPhase (cfg : StartConfig threads) (p : Party threads) : PartyPhase → Prop
  | .absent => p = .generator
  | .relock serial | .recheck serial => serial = 0
  | .unlock res | .returned res => 0 ≤ res ↔ AllOk cfg
  | .running => AllOk cfg ∧ ∃ i, p = .worker i
  | .exited => ¬AllOk cfg ∧ ∃ i, p = .worker i
  | _ => False

structure Opened (cfg : StartConfig threads) (s : StartState threads) : Prop where
  serial : s.serial = 1
  callbacks : s.callbacks = 1
  barrierError : s.barrierError = true ↔ ¬AllOk cfg
  phases : ∀ p, OpenedPhase cfg p (s.phase p)

theorem Gathering.phase_of (h : Gathering cfg s) (hp : s.phase p = q) : GatherPhase cfg p q :=
  hp ▸ h.phases p

theorem Opened.phase_of (h : Opened cfg s) (hp : s.phase p = q) : OpenedPhase cfg p q :=
  hp ▸ h.phases p

/-! ### Gathering -/

theorem gathering_init (cfg : StartConfig threads) : Gathering cfg (startInit cfg) := by
  have hphase : ∀ p, p ≠ .generator → (startInit cfg).phase p = .starting := by
    intro p hp
    exact if_neg fun hc => hp hc.1
  have hgen : ((startInit cfg).phase .generator).pending = if cfg.rate then 1 else 0 := by
    show (if _ then PartyPhase.absent else .starting).pending = _
    cases cfg.rate with
    | true | false => rfl
  have hcount : cfg.barrierThreads = pendingParties (startInit cfg) := by
    have hworkers : ∀ i, ((startInit cfg).phase (.worker i)).pending = 1 := by
      intro i
      rfl
    have hmain : ((startInit cfg).phase .main).pending = 1 := by
      rfl
    rw [pendingParties, sum_parties, Finset.sum_congr rfl fun i _ => hworkers i, hmain, hgen,
      Finset.sum_const, Finset.card_univ, Fintype.card_fin, smul_eq_mul, Nat.mul_one,
      StartConfig.barrierThreads]
    omega
  have hnever : ∀ p, (startInit cfg).phase p ≠ .release := by
    intro p
    show (if _ then PartyPhase.absent else .starting) ≠ .release
    split <;> exact nofun
  refine ⟨rfl, rfl, rfl, nofun, ?_, ?_, hcount, ?_⟩
  · intro i _ hne
    exact absurd (hphase (.worker i) nofun) hne
  · intro p
    show GatherPhase cfg p (if _ then _ else _)
    split
    · rename_i hc
      exact hc.1
    · trivial
  · refine ⟨fun hc => ?_, fun ⟨p, hp⟩ => absurd hp (hnever p)⟩
    have hpos : cfg.barrierThreads = 0 := hc
    unfold StartConfig.barrierThreads at hpos
    omega

/-- Who moves must have left the mark of a failed `thread_init` behind; the others have. -/
theorem Gathering.error_update (h : Gathering cfg s)
    (hinit : ∀ i, p = .worker i → cfg.initOk i = false → q ≠ .failing → s.error = true)
    (i : Fin threads) (hi : cfg.initOk i = false)
    (hstarting : update s.phase p q (.worker i) ≠ .starting)
    (hfailing : update s.phase p q (.worker i) ≠ .failing) : s.error = true := by
  by_cases hip : .worker i = p
  · rw [hip, update_self] at hfailing
    exact hinit i hip.symm hi hfailing
  · rw [update_of_ne hip] at hstarting hfailing
    exact h.error_complete i hi hstarting hfailing

variable {q₀ : PartyPhase}

/-- A step of a party that stays on its side of the count. -/
theorem Gathering.move (h : Gathering cfg s) (hp : s.phase p = q₀) (m : Option (Party threads))
    (hq : GatherPhase cfg p q) (hpending : q.pending = q₀.pending) (hq₀ : q₀ ≠ .release)
    (hq' : q ≠ .release)
    (hinit : ∀ i, p = .worker i → cfg.initOk i = false → q ≠ .failing → s.error = true) :
    Gathering cfg { s with phase := update s.phase p q, mutex := m } := by
  subst hp
  refine ⟨h.serial, h.callbacks, h.barrierError, h.error_sound, h.error_update hinit, ?_, ?_, ?_⟩
  · exact (forall_update_iff s.phase (GatherPhase cfg)).mpr ⟨hq, fun r _ => h.phases r⟩
  · have hsum := sum_phase_update PartyPhase.pending s.phase p q
    show s.count = ∑ r, (update s.phase p q r).pending
    rw [h.count, pendingParties]
    omega
  · refine h.last.trans (Iff.trans ?_
      (exists_update_iff s.phase fun _ q' => q' = .release).symm)
    refine ⟨fun ⟨r, hr⟩ => .inr ⟨r, ?_, hr⟩, ?_⟩
    · rintro rfl
      exact hq₀ hr
    · rintro (hc | ⟨r, -, hr⟩)
      · exact absurd hc hq'
      · exact ⟨r, hr⟩

/-- A step of a party that has come past its `thread_init`: if that failed, it has left its
mark. -/
theorem Gathering.moveOn (h : Gathering cfg s) (hp : s.phase p = q₀) (m : Option (Party threads))
    (hq : GatherPhase cfg p q) (hpending : q.pending = q₀.pending)
    (hq₀ : q₀ ≠ .starting ∧ q₀ ≠ .failing ∧ q₀ ≠ .release) (hq' : q ≠ .release) :
    Gathering cfg { s with phase := update s.phase p q, mutex := m } := by
  refine h.move hp m hq hpending hq₀.2.2 hq' ?_
  intro i hi hfail _
  subst hi
  exact h.error_complete i hfail (hp ▸ hq₀.1) (hp ▸ hq₀.2.1)

theorem Gathering.starting (h : Gathering cfg s) (hp : s.phase p = .starting) :
    Gathering cfg (s.goto p (afterInit cfg p)) := by
  cases p with
  | worker i =>
    by_cases hi : cfg.initOk i = true
    · rw [show afterInit cfg (.worker i) = .lock from if_pos hi]
      refine h.move hp s.mutex trivial rfl nofun nofun ?_
      intro j hj hfail
      cases hj
      rw [hi] at hfail
      cases hfail
    · rw [show afterInit cfg (.worker i) = .failing from if_neg hi]
      refine h.move hp s.mutex ⟨i, rfl, Bool.eq_false_iff.mpr hi⟩ rfl nofun nofun ?_
      intro j _ _ hne
      exact absurd rfl hne
  | main | generator => exact h.move hp s.mutex trivial rfl nofun nofun nofun

theorem Gathering.failing (h : Gathering cfg s) (hp : s.phase p = .failing) :
    Gathering cfg { s.goto p .lock with error := true } := by
  obtain ⟨i, -, hi⟩ := h.phase_of hp
  have hfailed : ¬AllOk cfg := fun hall => by rw [hall i] at hi; cases hi
  have herror : Gathering cfg { s with error := true } :=
    ⟨h.serial, h.callbacks, h.barrierError, fun _ => hfailed, fun _ _ _ _ => rfl, h.phases, h.count,
      h.last⟩
  have hmoved : Gathering cfg { s with error := true, phase := update s.phase p .lock } :=
    herror.move hp s.mutex trivial rfl nofun nofun fun _ _ _ _ => rfl
  exact hmoved

theorem Gathering.decrement (h : Gathering cfg s) (hmutex : MutexInv s)
    (hp : s.phase p = .decrement) :
    Gathering cfg { s.goto p (if s.count - 1 = 0 then .release else .condWait s.serial) with
      count := s.count - 1 } := by
  have hheld : (s.phase p).holding = true := by
    rw [hp]
    rfl
  have hother : ∀ r, s.phase r ≠ .release := by
    intro r hr
    have hrp := hmutex.eq (show (s.phase r).holding = true by rw [hr]; rfl) hheld
    rw [hrp, hp] at hr
    cases hr
  let q : PartyPhase := if s.count - 1 = 0 then .release else .condWait s.serial
  have hq : q.pending = 0 := by
    show (if _ then PartyPhase.release else .condWait _).pending = 0
    split <;> rfl
  have hinit : ∀ i, p = .worker i → cfg.initOk i = false → q ≠ .failing → s.error = true := by
    rintro i rfl hi -
    exact h.error_complete i hi (by rw [hp]; nofun) (by rw [hp]; nofun)
  have hgather : GatherPhase cfg p q := by
    show GatherPhase cfg p (if _ then _ else _)
    split
    · trivial
    · exact h.serial
  refine ⟨h.serial, h.callbacks, h.barrierError, h.error_sound, h.error_update hinit, ?_, ?_, ?_⟩
  · exact (forall_update_iff s.phase (GatherPhase cfg)).mpr
      ⟨hgather, fun r _ => h.phases r⟩
  · have hsum := sum_phase_update PartyPhase.pending s.phase p q
    rw [hq, hp] at hsum
    have hone : PartyPhase.decrement.pending = 1 := rfl
    show s.count - 1 = ∑ r, (update s.phase p q r).pending
    rw [h.count, pendingParties]
    omega
  · refine Iff.trans ?_ (exists_update_iff s.phase fun _ q' => q' = .release).symm
    show s.count - 1 = 0 ↔ q = .release ∨ _
    refine ⟨fun hzero => .inl (if_pos hzero), ?_⟩
    rintro (hc | ⟨r, -, hr⟩)
    · by_contra hne
      rw [show q = .condWait s.serial from if_neg hne] at hc
      cases hc
    · exact absurd hr (hother r)

/-- Releasing the others: everybody has arrived and nobody else is in the critical section. -/
theorem Gathering.release (h : Gathering cfg s) (hmutex : MutexInv s) (hp : s.phase p = .release) :
    Calling cfg (s.stepParty cfg p) := by
  have hzero : s.count = 0 := h.last.mpr ⟨p, hp⟩
  have hpending : ∀ r, (s.phase r).pending = 0 := by
    intro r
    exact pending_eq_zero (h.count ▸ hzero) r
  have hother : ∀ r, r ≠ p → ¬(s.phase r).holding = true := by
    intro r hr hheld
    exact hr (hmutex.eq hheld (by rw [hp]; rfl))
  have hstep : s.stepParty cfg p = { s with
      serial := s.serial + 1
      count := cfg.barrierThreads
      phase := update (fun q => wake (s.phase q)) p .callback } := by
    simp only [stepParty, hp]
  rw [hstep]
  have hself : update (fun q => wake (s.phase q)) p .callback p = .callback :=
    update_self ..
  refine ⟨?_, h.callbacks, h.barrierError, ⟨h.error_sound, ?_⟩, p, hself, ?_⟩
  · show s.serial + 1 = 1
    rw [h.serial]
  · intro hfailed
    obtain ⟨i, hi⟩ := not_forall.mp hfailed
    have harrived := hpending (.worker i)
    refine h.error_complete i (Bool.eq_false_iff.mpr hi) ?_ ?_
    · intro hc
      rw [hc] at harrived
      cases harrived
    · intro hc
      rw [hc] at harrived
      cases harrived
  · intro r hr
    have harrived := hpending r
    have hfree := hother r hr
    show update (fun q => wake (s.phase q)) p .callback r = .relock 0 ∨
      update (fun q => wake (s.phase q)) p .callback r = .absent ∧ _
    rw [update_of_ne hr]
    cases hq : s.phase r with
    | absent => exact .inr ⟨rfl, h.phase_of hq⟩
    | waiting serial | relock serial => exact .inl (congrArg PartyPhase.relock (h.phase_of hq))
    | starting | failing | lock | decrement =>
      rw [hq] at harrived
      cases harrived
    | release | condWait _ | recheck _ | callback | unlock _ =>
      rw [hq] at hfree
      exact absurd rfl hfree
    | returned _ | running | exited => exact (h.phase_of hq).elim

theorem Gathering.stepParty (h : Gathering cfg s) (hmutex : MutexInv s) (p : Party threads) :
    Gathering cfg (s.stepParty cfg p) ∨ Calling cfg (s.stepParty cfg p) := by
  by_cases hlast : s.phase p = .release
  · exact .inr (h.release hmutex hlast)
  refine .inl ?_
  unfold StartState.stepParty
  cases hp : s.phase p with
  | release => exact absurd hp hlast
  | absent | waiting _ => exact h
  | starting => exact h.starting hp
  | failing => exact h.failing hp
  | lock =>
    dsimp only
    split
    · exact h.moveOn hp (some p) trivial rfl ⟨nofun, nofun, nofun⟩ nofun
    · exact h
  | decrement => exact h.decrement hmutex hp
  | condWait serial =>
    have hphase := h.phase_of hp
    exact h.moveOn hp none hphase rfl ⟨nofun, nofun, nofun⟩ nofun
  | relock serial =>
    have hphase := h.phase_of hp
    dsimp only
    split
    · exact h.moveOn hp (some p) hphase rfl ⟨nofun, nofun, nofun⟩ nofun
    · exact h
  | recheck serial =>
    have hserial : serial = 0 := h.phase_of hp
    dsimp only
    rw [if_pos (hserial.trans h.serial.symm)]
    exact h.moveOn hp s.mutex hserial rfl ⟨nofun, nofun, nofun⟩ nofun
  | callback | unlock _ | returned _ | running | exited => exact (h.phase_of hp).elim

theorem goto_self (s : StartState threads) (p : Party threads) : s.goto p (s.phase p) = s := by
  unfold StartState.goto
  rw [update_eq_self]

/-- A spurious wake-up of a party that does not wait is none. -/
theorem goto_wake (s : StartState threads) (h : ∀ serial, s.phase p ≠ .waiting serial) :
    s.goto p (wake (s.phase p)) = s := by
  have hwake : wake (s.phase p) = s.phase p := by
    unfold wake
    split
    · rename_i serial hp
      exact absurd hp (h serial)
    · rfl
  rw [hwake, goto_self]

theorem Gathering.spurious (h : Gathering cfg s) (p : Party threads) :
    Gathering cfg (s.goto p (wake (s.phase p))) := by
  by_cases hwaiting : ∃ serial, s.phase p = .waiting serial
  · obtain ⟨serial, hp⟩ := hwaiting
    have hphase : serial = 0 := h.phase_of hp
    rw [hp]
    exact h.moveOn hp s.mutex hphase rfl ⟨nofun, nofun, nofun⟩ nofun
  · rw [goto_wake s fun serial hp => hwaiting ⟨serial, hp⟩]
    exact h

/-! ### The callback -/

/-- The callback's verdict is the barrier's. -/
theorem Calling.callback (h : Calling cfg s) (hp : s.phase p = .callback) :
    Opened cfg (s.callback p) := by
  obtain ⟨p', hp', hothers⟩ := h.phases
  have hpp : p = p' := by
    by_contra hne
    rcases hothers p hne with hc | ⟨hc, -⟩
    · rw [hp] at hc
      cases hc
    · rw [hp] at hc
      cases hc
  subst hpp
  have hphases : ∀ res : ℤ, (0 ≤ res ↔ AllOk cfg) →
      ∀ r, OpenedPhase cfg r (update s.phase p (.unlock res) r) := by
    intro res hres
    refine (forall_update_iff s.phase (OpenedPhase cfg)).mpr ⟨hres, fun r hr => ?_⟩
    rcases hothers r hr with hrelock | ⟨habsent, hgen⟩
    · rw [hrelock]
      rfl
    · rw [habsent]
      exact hgen
  have hcallbacks : s.callbacks + 1 = 1 := by rw [h.callbacks]
  unfold StartState.callback
  by_cases herror : s.error = true
  · have hfailed := h.error.mp herror
    rw [if_pos herror]
    refine ⟨h.serial, hcallbacks, ⟨fun _ => hfailed, fun _ => rfl⟩, hphases (-1) ?_⟩
    exact ⟨fun hc => absurd hc (by decide), fun hc => absurd hc hfailed⟩
  · have hall : AllOk cfg := by
      by_contra hfailed
      exact herror (h.error.mpr hfailed)
    rw [if_neg herror]
    refine ⟨h.serial, hcallbacks, ⟨fun hc => ?_, fun hc => absurd hall hc⟩, hphases 1 ?_⟩
    · exact absurd (h.barrierError.symm.trans (show s.barrierError = true from hc)) nofun
    · exact ⟨fun _ => hall, fun _ => by decide⟩

/-- Only the party with the callback can move. -/
theorem Calling.stepParty (h : Calling cfg s) (hmutex : MutexInv s) (p : Party threads) :
    Calling cfg (s.stepParty cfg p) ∨ Opened cfg (s.stepParty cfg p) := by
  obtain ⟨p', hp', hothers⟩ := h.phases
  by_cases hpp : p = p'
  · subst hpp
    simp only [StartState.stepParty, hp']
    exact .inr (h.callback hp')
  · refine .inl ?_
    have hheld : s.mutex = some p' := (hmutex p').mp (by rw [hp']; rfl)
    rcases hothers p hpp with hrelock | ⟨habsent, -⟩
    · simp only [StartState.stepParty, hrelock, hheld]
      exact h
    · simp only [StartState.stepParty, habsent]
      exact h

/-! ### After the callback -/

theorem Opened.move (h : Opened cfg s) (m : Option (Party threads)) (hq : OpenedPhase cfg p q) :
    Opened cfg { s with phase := update s.phase p q, mutex := m } := by
  refine ⟨h.serial, h.callbacks, h.barrierError, ?_⟩
  exact (forall_update_iff s.phase (OpenedPhase cfg)).mpr ⟨hq, fun r _ => h.phases r⟩

/-- A worker runs if its wait said so and its own `thread_init` succeeded; either way this is
the common verdict. -/
theorem openedPhase_afterWait {res : ℤ} (hres : 0 ≤ res ↔ AllOk cfg) (p : Party threads) :
    OpenedPhase cfg p (afterWait cfg res p) := by
  cases p with
  | worker i =>
    show OpenedPhase cfg _ (if cfg.initOk i ∧ 0 ≤ res then .running else .exited)
    split
    · rename_i hrun
      exact ⟨hres.mp hrun.2, i, rfl⟩
    · rename_i hstop
      exact ⟨fun hall => hstop ⟨hall i, hres.mpr hall⟩, i, rfl⟩
  | main | generator => exact hres

theorem Opened.stepParty (h : Opened cfg s) (p : Party threads) :
    Opened cfg (s.stepParty cfg p) := by
  unfold StartState.stepParty
  cases hp : s.phase p with
  | absent | running | exited => exact h
  | relock serial =>
    have hphase := h.phase_of hp
    dsimp only
    split
    · exact h.move (some p) hphase
    · exact h
  | recheck serial =>
    have hserial : serial ≠ s.serial := by
      rw [show serial = 0 from h.phase_of hp, h.serial]
      decide
    dsimp only
    rw [if_neg hserial]
    refine h.move s.mutex ?_
    by_cases hfailed : s.barrierError = true
    · rw [if_pos hfailed]
      exact iff_of_false (by decide) (h.barrierError.mp hfailed)
    · rw [if_neg hfailed]
      exact iff_of_true (Int.le_refl 0) (not_not.mp (mt h.barrierError.mpr hfailed))
  | unlock res =>
    have hphase := h.phase_of hp
    exact h.move none hphase
  | returned res => exact h.move s.mutex (openedPhase_afterWait (h.phase_of hp) p)
  | starting | failing | lock | decrement | release | callback | condWait _ | waiting _ =>
    exact (h.phase_of hp).elim

/-! ### Every run -/

/-- The mutex and the stage a run is in. -/
structure StartInv (cfg : StartConfig threads) (s : StartState threads) : Prop where
  mutex : MutexInv s
  stage : Gathering cfg s ∨ Calling cfg s ∨ Opened cfg s

theorem StartInv.stepParty (h : StartInv cfg s) (p : Party threads) :
    StartInv cfg (s.stepParty cfg p) := by
  refine ⟨mutexInv_stepParty h.mutex p, ?_⟩
  rcases h.stage with hgather | hcall | hopened
  · rcases hgather.stepParty h.mutex p with hnext | hnext
    · exact .inl hnext
    · exact .inr (.inl hnext)
  · exact .inr (hcall.stepParty h.mutex p)
  · exact .inr (.inr (hopened.stepParty p))

theorem StartInv.spurious (h : StartInv cfg s) (p : Party threads) :
    StartInv cfg (s.goto p (wake (s.phase p))) := by
  rcases h.stage with hgather | hcall | hopened
  · exact ⟨h.mutex.keep p (holding_wake _), .inl (hgather.spurious p)⟩
  · rw [goto_wake s fun _ hp => hcall.phase_of hp]
    exact h
  · rw [goto_wake s fun _ hp => hopened.phase_of hp]
    exact h

variable {i : Fin threads}

/-- The error flag may be set by a running worker, when the verdict stands. -/
theorem StartInv.runError (h : StartInv cfg s) (hi : s.phase (.worker i) = .running) :
    StartInv cfg { s with error := true } := by
  rcases h.stage with hgather | hcall | hopened
  · exact (hgather.phase_of hi).elim
  · exact (hcall.phase_of hi).elim
  · exact ⟨h.mutex, .inr (.inr
      ⟨hopened.serial, hopened.callbacks, hopened.barrierError, hopened.phases⟩)⟩

theorem StartInv.step (h : StartInv cfg s) (e : StartEvent threads) :
    StartInv cfg (s.step cfg e) := by
  cases e with
  | step p => exact h.stepParty p
  | spurious p => exact h.spurious p
  | runError i =>
    show StartInv cfg (if s.phase (.worker i) = .running then { s with error := true } else s)
    split
    · rename_i hi
      exact h.runError hi
    · exact h

theorem startInv_run (cfg : StartConfig threads) (events : List (StartEvent threads)) :
    StartInv cfg (run cfg events) :=
  invariant (fun _ e h => h.step e) ⟨mutexInv_init cfg, .inl (gathering_init cfg)⟩ events

/-! ### Nobody is left at the barrier -/

theorem stepParty_ne_of_phase (h : (s.stepParty cfg p).phase p ≠ s.phase p) :
    s.stepParty cfg p ≠ s := by
  intro hc
  exact h (congrFun (congrArg StartState.phase hc) p)

theorem moves_of_holding (cfg : StartConfig threads) (hp : (s.phase p).holding = true) :
    s.stepParty cfg p ≠ s := by
  refine stepParty_ne_of_phase ?_
  unfold StartState.stepParty
  cases hq : s.phase p with
  | decrement =>
    simp only [StartState.goto, update_self]
    split <;> exact nofun
  | release | condWait _ | unlock _ =>
    simp only [StartState.goto, update_self]
    exact nofun
  | callback =>
    simp only [StartState.callback, StartState.goto]
    split <;> simp
  | recheck serial =>
    simp only [StartState.goto]
    split <;> simp
  | _ =>
    rw [hq] at hp
    cases hp

/-- While the mutex is free, so can everybody who has not arrived or has been woken. -/
theorem moves_of_free (cfg : StartConfig threads) (hfree : s.mutex = none)
    (hp : (s.phase p).pending ≠ 0 ∨ ∃ serial, s.phase p = .relock serial) :
    s.stepParty cfg p ≠ s := by
  refine stepParty_ne_of_phase ?_
  unfold StartState.stepParty
  cases hq : s.phase p with
  | starting =>
    simp only [StartState.goto, update_self]
    cases p with
    | worker i =>
      show (if cfg.initOk i then PartyPhase.lock else .failing) ≠ .starting
      split <;> exact nofun
    | main | generator => exact nofun
  | failing =>
    simp only [StartState.goto, update_self]
    exact nofun
  | lock | relock _ =>
    simp only [hfree, StartState.goto, if_true, update_self]
    exact nofun
  | decrement =>
    simp only [StartState.goto, update_self]
    split <;> exact nofun
  | _ =>
    rw [hq] at hp
    exact absurd hp (by simp [PartyPhase.pending])

/-- No party can make a step. -/
def Stuck (cfg : StartConfig threads) (s : StartState threads) : Prop :=
  ∀ p, s.stepParty cfg p = s

theorem Stuck.mutex_free (h : Stuck cfg s) (hmutex : MutexInv s) : s.mutex = none := by
  cases hm : s.mutex with
  | none => rfl
  | some p => exact absurd (h p) (moves_of_holding cfg ((hmutex p).mpr hm))

/-- Where nobody can move, everybody has been released. -/
theorem StartInv.opened_of_stuck (h : StartInv cfg s) (hstuck : Stuck cfg s) :
    Opened cfg s := by
  have hfree := hstuck.mutex_free h.mutex
  rcases h.stage with hgather | hcall | hopened
  · -- Somebody has not arrived, or the last to arrive holds the mutex.
    exfalso
    by_cases hzero : pendingParties s = 0
    · obtain ⟨p, hp⟩ := hgather.last.mp (hgather.count.trans hzero)
      exact h.mutex.not_holding hfree p (by rw [hp]; rfl)
    · obtain ⟨p, -, hp⟩ := Finset.exists_ne_zero_of_sum_ne_zero hzero
      exact moves_of_free cfg hfree (.inl hp) (hstuck p)
  · obtain ⟨p, hp, -⟩ := hcall.phases
    exact absurd (by rw [hp]; rfl) (h.mutex.not_holding hfree p)
  · exact hopened

/-- **Where nobody can move, everybody has got through.**  The main thread's wait has returned,
and every worker runs or has exited. -/
theorem StartInv.stuck_started (h : StartInv cfg s) (hstuck : Stuck cfg s) :
    (∃ res, s.phase .main = .returned res) ∧
    ∀ i, s.phase (.worker i) = .running ∨ s.phase (.worker i) = .exited := by
  have hfree := hstuck.mutex_free h.mutex
  have hopened := h.opened_of_stuck hstuck
  have hdone : ∀ p, p ≠ .generator → (∃ res, s.phase p = .returned res) ∨
      s.phase p = .running ∧ (∃ i, p = .worker i) ∨ s.phase p = .exited ∧ ∃ i, p = .worker i := by
    intro p hgen
    have hholding := h.mutex.not_holding hfree p
    cases hp : s.phase p with
    | absent => exact absurd (hopened.phase_of hp) hgen
    | relock serial => exact absurd (hstuck p) (moves_of_free cfg hfree (.inr ⟨serial, hp⟩))
    | recheck serial | unlock res =>
      rw [hp] at hholding
      exact absurd rfl hholding
    | returned res => exact .inl ⟨res, rfl⟩
    | running => exact .inr (.inl ⟨rfl, (hopened.phase_of hp).2⟩)
    | exited => exact .inr (.inr ⟨rfl, (hopened.phase_of hp).2⟩)
    | starting | failing | lock | decrement | release | callback | condWait _ | waiting _ =>
      exact (hopened.phase_of hp).elim
  refine ⟨?_, ?_⟩
  · rcases hdone .main nofun with hmain | ⟨-, i, hi⟩ | ⟨-, i, hi⟩
    · exact hmain
    · cases hi
    · cases hi
  · intro i
    rcases hdone (.worker i) nofun with ⟨res, hres⟩ | ⟨hrun, -⟩ | ⟨hexit, -⟩
    · -- A worker whose wait has returned goes on.
      have hmoved := congrFun (congrArg StartState.phase (hstuck (.worker i))) (.worker i)
      simp only [StartState.stepParty, hres, StartState.goto, update_self, afterWait]
        at hmoved
      split at hmoved <;> cases hmoved
    · exact .inl hrun
    · exact .inr hexit

/-! ### Every run ends -/

/-- How many steps a party is from the end at most, with the barrier at `serial`.  A wake-up that
has not been released leads back to the wait. -/
def PartyPhase.rank (serial : ℕ) : PartyPhase → ℕ
  | .absent => 0
  | .starting => 14
  | .failing => 13
  | .lock => 12
  | .decrement => 11
  | .release => 10
  | .callback => 9
  | .condWait _ => 8
  | .waiting _ => 7
  | .relock n => if n = serial then 10 else 6
  | .recheck n => if n = serial then 9 else 5
  | .unlock _ => 4
  | .returned _ => 3
  | .running => 0
  | .exited => 0

def startRank (s : StartState threads) : ℕ := ∑ p, (s.phase p).rank s.serial

theorem rank_le (serial : ℕ) (q : PartyPhase) : q.rank serial ≤ 14 := by
  cases q with
  | relock n =>
    show (if n = serial then 10 else 6) ≤ 14
    split <;> decide
  | recheck n =>
    show (if n = serial then 9 else 5) ≤ 14
    split <;> decide
  | _ => simp [PartyPhase.rank]

theorem startRank_le (s : StartState threads) : startRank s ≤ 14 * (threads + 2) := by
  have hcard : Fintype.card (Party threads) = threads + 2 := by
    rw [← Fintype.card_congr (Party.equiv threads), Fintype.card_sum, Fintype.card_fin,
      Fintype.card_bool]
  calc startRank s ≤ ∑ _p : Party threads, 14 := Finset.sum_le_sum fun p _ => rank_le _ _
    _ = 14 * (threads + 2) := by
        rw [Finset.sum_const, Finset.card_univ, hcard, smul_eq_mul, Nat.mul_comm]

theorem startRank_move (p : Party threads) (hp : s.phase p = q₀)
    (hphase : s'.phase = update s.phase p q) (hserial : s'.serial = s.serial)
    (hrank : q.rank s.serial < q₀.rank s.serial) : startRank s' < startRank s := by
  have hsum := sum_phase_update (PartyPhase.rank s.serial) s.phase p q
  rw [hp] at hsum
  unfold startRank
  rw [hphase, hserial]
  omega

/-- The broadcast moves the last to arrive forward, and nobody back. -/
theorem Gathering.startRank_release (h : Gathering cfg s) (hp : s.phase p = .release) :
    startRank (s.stepParty cfg p) < startRank s := by
  simp only [StartState.stepParty, hp]
  have hle : ∀ r, (wake (s.phase r)).rank 1 ≤ (s.phase r).rank 0 := by
    intro r
    cases hq : s.phase r with
    | waiting serial | relock serial | recheck serial =>
      rw [show serial = 0 from h.phase_of hq]
      decide
    | _ => exact Nat.le_refl _
  have hsum := sum_phase_update (PartyPhase.rank 1) (fun q => wake (s.phase q)) p .callback
  rw [show wake (s.phase p) = .release by rw [hp]; rfl] at hsum
  have hone : PartyPhase.rank 1 .release = 10 := rfl
  have hnine : PartyPhase.rank 1 .callback = 9 := rfl
  have htotal : ∑ r, (wake (s.phase r)).rank 1 ≤ ∑ r, (s.phase r).rank 0 :=
    Finset.sum_le_sum fun r _ => hle r
  unfold startRank
  rw [h.serial]
  show ∑ r, (update (fun q => wake (s.phase q)) p PartyPhase.callback r).rank 1 < _
  omega

theorem StartInv.startRank_step (h : StartInv cfg s) (hmoves : s.stepParty cfg p ≠ s) :
    startRank (s.stepParty cfg p) < startRank s := by
  by_cases hlast : s.phase p = .release
  · rcases h.stage with hgather | hcall | hopened
    · exact hgather.startRank_release hlast
    · exact (hcall.phase_of hlast).elim
    · exact (hopened.phase_of hlast).elim
  unfold StartState.stepParty at hmoves ⊢
  cases hp : s.phase p with
  | release => exact absurd hp hlast
  | absent | waiting _ | running | exited =>
    rw [hp] at hmoves
    exact absurd rfl hmoves
  | starting =>
    refine startRank_move p hp rfl rfl ?_
    cases p with
    | worker i =>
      show (if cfg.initOk i then PartyPhase.lock else .failing).rank _ < 14
      split <;> simp [PartyPhase.rank]
    | main | generator => simp [afterInit, PartyPhase.rank]
  | failing | condWait _ | unlock _ =>
    exact startRank_move p hp rfl rfl (by simp [PartyPhase.rank])
  | lock =>
    simp only [hp] at hmoves ⊢
    split at hmoves
    · rename_i hfree
      rw [if_pos hfree]
      exact startRank_move p hp rfl rfl (by simp [PartyPhase.rank])
    · exact absurd rfl hmoves
  | decrement =>
    refine startRank_move p hp rfl rfl ?_
    split <;> simp [PartyPhase.rank]
  | callback =>
    dsimp only
    unfold StartState.callback
    split <;> exact startRank_move p hp rfl rfl (by simp [PartyPhase.rank])
  | relock serial =>
    simp only [hp] at hmoves ⊢
    split at hmoves
    · rename_i hfree
      rw [if_pos hfree]
      refine startRank_move p hp rfl rfl ?_
      show (if serial = s.serial then 9 else 5) < if serial = s.serial then 10 else 6
      split <;> decide
    · exact absurd rfl hmoves
  | recheck serial =>
    dsimp only
    split
    · rename_i hsame
      refine startRank_move p hp rfl rfl ?_
      simp [PartyPhase.rank, hsame]
    · rename_i hnew
      refine startRank_move p hp rfl rfl ?_
      simp [PartyPhase.rank, hnew]
  | returned res =>
    simp only [hp] at hmoves ⊢
    cases p with
    | worker i =>
      refine startRank_move _ hp rfl rfl ?_
      show (if cfg.initOk i ∧ 0 ≤ res then PartyPhase.running else .exited).rank _ < 3
      split <;> simp [PartyPhase.rank]
    | main | generator =>
      refine absurd ?_ hmoves
      show s.goto _ (.returned res) = s
      rw [← hp, goto_self]

/-- The event is a step some party really makes. -/
def MakesStep (cfg : StartConfig threads) (s : StartState threads) (e : StartEvent threads) :
    Prop :=
  ∃ p, e = .step p ∧ s.stepParty cfg p ≠ s

theorem StartInv.length_le (h : StartInv cfg s) {events : List (StartEvent threads)}
    (hsteps : Along (StartState.step cfg) (MakesStep cfg) s events) :
    events.length ≤ startRank s := by
  induction events generalizing s with
  | nil => exact Nat.zero_le _
  | cons e events ih =>
    obtain ⟨⟨p, rfl, hmoves⟩, hrest⟩ := hsteps
    have hlt := h.startRank_step hmoves
    have hle := ih (h.stepParty p) hrest
    rw [List.length_cons]
    omega

/-! ### The verdict -/

/-- Everybody is told that the run has started: nobody is turned away, and who runs does so after
the one call of the callback. -/
structure AllStart (cfg : StartConfig threads) (s : StartState threads) : Prop where
  allOk : ∀ i, cfg.initOk i = true
  callbacks_le : s.callbacks ≤ 1
  results : ∀ p res, s.phase p = .returned res → 0 ≤ res
  notExited : ∀ i, s.phase (.worker i) ≠ .exited
  running : ∀ i, s.phase (.worker i) = .running → s.callbacks = 1
  final : Stuck cfg s → s.callbacks = 1 ∧ (∀ i, s.phase (.worker i) = .running) ∧
    ∃ res, s.phase .main = .returned res ∧ 0 ≤ res

/-- Nobody runs, and the main thread is told so. -/
structure NoneStart (cfg : StartConfig threads) (s : StartState threads) : Prop where
  failed : ∃ i, cfg.initOk i = false
  callbacks_le : s.callbacks ≤ 1
  results : ∀ p res, s.phase p = .returned res → res < 0
  notRunning : ∀ i, s.phase (.worker i) ≠ .running
  final : Stuck cfg s → s.callbacks = 1 ∧ (∀ i, s.phase (.worker i) = .exited) ∧
    ∃ res, s.phase .main = .returned res ∧ res < 0

/-- The wait at the barrier has returned. -/
def PartyPhase.Past : PartyPhase → Prop
  | .returned _ | .running | .exited => True
  | _ => False

theorem GatherPhase.not_past (h : GatherPhase cfg p q) : ¬q.Past := by
  cases q <;> first | exact id | exact h.elim

theorem CallingPhase.not_past (h : CallingPhase p q) : ¬q.Past := by
  cases q <;> first | exact id | exact h.elim

/-- A party that is past the barrier has seen the callback called. -/
theorem StartInv.opened_of (h : StartInv cfg s) (hp : (s.phase p).Past) : Opened cfg s := by
  rcases h.stage with hgather | hcall | hopened
  · exact absurd hp (hgather.phases p).not_past
  · exact absurd hp (hcall.phase_of rfl).not_past
  · exact hopened

theorem StartInv.callbacks_le (h : StartInv cfg s) : s.callbacks ≤ 1 := by
  rcases h.stage with hgather | hcall | hopened
  · rw [hgather.callbacks]
    decide
  · rw [hcall.callbacks]
    decide
  · exact hopened.callbacks.le

/-- What a wait has returned is the common verdict. -/
theorem StartInv.result (h : StartInv cfg s) {res : ℤ} (hp : s.phase p = .returned res) :
    0 ≤ res ↔ AllOk cfg :=
  (h.opened_of (by rw [hp]; trivial)).phase_of hp

theorem StartInv.allOk_of_running (h : StartInv cfg s) (hi : s.phase (.worker i) = .running) :
    AllOk cfg :=
  ((h.opened_of (by rw [hi]; trivial)).phase_of hi).1

theorem StartInv.not_allOk_of_exited (h : StartInv cfg s) (hi : s.phase (.worker i) = .exited) :
    ¬AllOk cfg :=
  ((h.opened_of (by rw [hi]; trivial)).phase_of hi).1

theorem StartInv.allStart (h : StartInv cfg s) (hall : AllOk cfg) : AllStart cfg s := by
  refine ⟨hall, h.callbacks_le, ?_, ?_, ?_, ?_⟩
  · intro p res hp
    exact (h.result hp).mpr hall
  · intro i hi
    exact h.not_allOk_of_exited hi hall
  · intro i hi
    exact (h.opened_of (by rw [hi]; trivial)).callbacks
  · intro hstuck
    obtain ⟨⟨res, hmain⟩, hworkers⟩ := h.stuck_started hstuck
    refine ⟨(h.opened_of_stuck hstuck).callbacks, ?_, res, hmain, (h.result hmain).mpr hall⟩
    intro i
    exact (hworkers i).resolve_right fun hi => h.not_allOk_of_exited hi hall

theorem StartInv.noneStart (h : StartInv cfg s) (hfailed : ¬AllOk cfg) : NoneStart cfg s := by
  refine ⟨?_, h.callbacks_le, ?_, ?_, ?_⟩
  · obtain ⟨i, hi⟩ := not_forall.mp hfailed
    exact ⟨i, Bool.eq_false_iff.mpr hi⟩
  · intro p res hp
    exact Int.not_le.mp fun hc => hfailed ((h.result hp).mp hc)
  · intro i hi
    exact hfailed (h.allOk_of_running hi)
  · intro hstuck
    obtain ⟨⟨res, hmain⟩, hworkers⟩ := h.stuck_started hstuck
    refine ⟨(h.opened_of_stuck hstuck).callbacks, ?_, res, hmain,
      Int.not_le.mp fun hc => hfailed ((h.result hmain).mp hc)⟩
    intro i
    exact (hworkers i).resolve_left fun hi => hfailed (h.allOk_of_running hi)

/-- **All or nothing.**  For any number of workers, any pattern of failures and any order of
steps, spurious wake-ups included: either all start or none does, in every state and in
particular where nobody can move any more; and from every state the parties can make no more
than fourteen steps each before that is so. -/
theorem start_all_or_nothing (cfg : StartConfig threads) (events : List (StartEvent threads)) :
    (AllStart cfg (run cfg events) ∨ NoneStart cfg (run cfg events)) ∧
    ∀ more, Along (StartState.step cfg) (MakesStep cfg) (run cfg events) more →
      more.length ≤ 14 * (threads + 2) := by
  have hinv := startInv_run cfg events
  refine ⟨?_, ?_⟩
  · by_cases hall : AllOk cfg
    · exact .inl (hinv.allStart hall)
    · exact .inr (hinv.noneStart hall)
  · intro more hmore
    exact Nat.le_trans (hinv.length_le hmore) (startRank_le _)

end Sysbench
