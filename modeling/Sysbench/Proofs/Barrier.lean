/-
A barrier keeps its threads in step.

With as many threads as the barrier was made for, a thread is never more than one round
away from any other.  `PhaseOk` is the table behind that: with `rounds` rounds released
so far, a thread that has finished `done` calls is either waiting for the next release,
`done = rounds`, or on its way out of the last one, `done + 1 = rounds`, and where it is
in `sb_barrier_wait` says which of the two is possible.  The serial numbers that waiting
threads remember are two consecutive ones, so it does not matter that they wrap.

The count is the number of threads that have not arrived in the round under way, those
that are still on their way out of the last one included.  When it comes down to zero,
nobody is: that is why the callback finds every thread in its call, and why an error it
reports is read by all of them before the next callback can change it.
-/
import Mathlib.Algebra.Order.BigOperators.Group.Finset
import Sysbench.Lib.Mutex
import Sysbench.Lib.Schedule
import Sysbench.Lib.Wrapping
import Sysbench.Model.Barrier

namespace Sysbench

open Function

/-! ### The phases -/

def WaitPhase.holding : WaitPhase → Bool
  | .decrement | .release | .broadcast | .callback | .condWait _ | .recheck _ | .unlock _ => true
  | .outside | .lock | .waiting _ | .relock _ => false

/-- Between the release of a round and the end of its callback -/
def WaitPhase.calling : WaitPhase → Bool
  | .broadcast | .callback => true
  | _ => false

theorem WaitPhase.holding_of_calling {q : WaitPhase} (h : q.calling = true) :
    q.holding = true := by
  cases q <;> simp_all [calling, holding]

/-- The callback fails in round `k`. -/
def SbBarrierCb.Fails (cb : SbBarrierCb) (k : ℕ) : Prop := ∃ f, cb = some f ∧ f k ≠ 0

theorem SbBarrierCb.Fails.isSome {cb : SbBarrierCb} {k : ℕ} (h : cb.Fails k) :
    cb.isSome = true := by
  obtain ⟨f, rfl, -⟩ := h
  rfl

/-- What the documentation promises for round `k`, as long as no callback has failed before. -/
def RightResult (cb : SbBarrierCb) (k : ℕ) (res : ℤ) : Prop :=
  (∀ j < k, ¬cb.Fails j) → (res < 0 ↔ cb.Fails k)

/-- Where a thread that has begun `calls` calls and finished `done` of them can be. -/
def PhaseOk (cb : SbBarrierCb) (rounds : ℕ) (q : WaitPhase) (calls done : ℕ) : Prop :=
  match q with
  | .outside => calls = done ∧ done = rounds
  | .lock | .decrement | .release => calls = done + 1 ∧ done = rounds
  | .condWait serial => calls = done + 1 ∧ done = rounds ∧ serial = UInt32.ofNat done
  | .waiting serial | .relock serial | .recheck serial =>
    calls = done + 1 ∧ (done = rounds ∨ done + 1 = rounds) ∧ serial = UInt32.ofNat done
  | .broadcast | .callback => calls = done + 1 ∧ done + 1 = rounds
  | .unlock res => calls = done + 1 ∧ done + 1 = rounds ∧ RightResult cb done res

/-- Whatever the phase, a thread is in step. -/
theorem PhaseOk.bounds {cb : SbBarrierCb} {rounds : ℕ} {q : WaitPhase} {calls done : ℕ}
    (h : PhaseOk cb rounds q calls done) :
    done ≤ rounds ∧ rounds ≤ calls ∧ calls ≤ done + 1 := by
  cases q <;> simp only [PhaseOk] at h <;> omega

theorem ofNat_ne_ofNat_succ (k : ℕ) : UInt32.ofNat k ≠ UInt32.ofNat (k + 1) := by
  intro h
  have hnat := congrArg UInt32.toNat h
  rw [UInt32.toNat_ofNat', UInt32.toNat_ofNat'] at hnat
  omega

/-- Has the thread yet to arrive in the round under way? -/
def pendingIn (rounds : ℕ) (q : WaitPhase) (done : ℕ) : ℕ :=
  match q with
  | .outside | .lock | .decrement => 1
  | _ => if done = rounds then 0 else 1

namespace BarrierState

variable {T : Type} [Fintype T] {cb : SbBarrierCb} {s : BarrierState T}

/-- Everything that holds between two steps. -/
structure Inv (cb : SbBarrierCb) (s : BarrierState T) : Prop where
  held : Mutex.Held WaitPhase.holding s.phase s.mutex
  initCount : s.barrier.initCount.toNat = Fintype.card T
  serial : s.barrier.serial = UInt32.ofNat s.rounds
  phases : ∀ t, PhaseOk cb s.rounds (s.phase t) (s.calls t) (s.results t).length
  results : ∀ t k res, (s.results t)[k]? = some res → RightResult cb k res
  count : s.barrier.count.toNat
    = ∑ t, pendingIn s.rounds (s.phase t) (s.results t).length
  released : ∀ p, s.phase p = .release → s.barrier.count = 0
  /-- While the callback is called, everybody is in the call of this round. -/
  full : ∀ p, (s.phase p).calling = true → ∀ t, (s.results t).length + 1 = s.rounds
  calling : ∀ p, (s.phase p).calling = true → cb.isSome = true → s.callbacks + 1 = s.rounds
  called : (∀ p, (s.phase p).calling = false) → cb.isSome = true → s.callbacks = s.rounds
  error : s.barrier.error = true ↔ ∃ j < s.callbacks, cb.Fails j

theorem inv_start {n : UInt32} {barrier : SbBarrier} (hinit : sbBarrierInit n = some barrier)
    (hcard : Fintype.card T = n.toNat) : Inv cb (start barrier : BarrierState T) := by
  unfold sbBarrierInit at hinit
  split at hinit
  · cases hinit
  · cases hinit
    constructor
    case held => exact fun t => ⟨nofun, nofun⟩
    case initCount => exact hcard.symm
    case serial => rfl
    case phases => exact fun t => (⟨rfl, rfl⟩ : 0 = 0 ∧ 0 = 0)
    case results => exact nofun
    case count => simp [start, pendingIn, hcard]
    case released => exact nofun
    case full => exact nofun
    case calling => exact nofun
    case called => exact fun _ _ => rfl
    case error => simp [start]

variable {t : T}

/-- The holder of the mutex is not calling the callback, so nobody is. -/
theorem Inv.none_calling (h : Inv cb s) (ht : (s.phase t).holding = true)
    (hnot : (s.phase t).calling = false) (p : T) : (s.phase p).calling = false := by
  by_contra hp
  have hcalling : (s.phase p).calling = true := by simpa using hp
  have heq : p = t := h.held.eq (WaitPhase.holding_of_calling hcalling) ht
  rw [heq, hnot] at hcalling
  cases hcalling

theorem Inv.phase_of (h : Inv cb s) {q : WaitPhase} (ht : s.phase t = q) :
    PhaseOk cb s.rounds q (s.calls t) (s.results t).length :=
  ht ▸ h.phases t

variable [DecidableEq T]

/-! ### Steps of one thread within a round -/

theorem sum_pending_update (s : BarrierState T) (t : T) (q : WaitPhase) (results : List ℤ) :
    ∑ r, pendingIn s.rounds (update s.phase t q r)
        (update s.results t results r).length
      + pendingIn s.rounds (s.phase t) (s.results t).length
    = ∑ r, pendingIn s.rounds (s.phase r) (s.results r).length
      + pendingIn s.rounds q results.length := by
  have hpoint : ∀ r, pendingIn s.rounds (update s.phase t q r)
      (update s.results t results r).length
      = update (fun r => pendingIn s.rounds (s.phase r) (s.results r).length) t
          (pendingIn s.rounds q results.length) r := by
    intro r
    by_cases hr : r = t
    · subst hr
      simp only [update_self]
    · simp only [update_of_ne hr]
  rw [Finset.sum_congr rfl fun r _ => hpoint r]
  exact Wrapping.sum_update _ t _

/-- A step of one thread that does not touch the rest of the barrier but the count: the
thread stays in the table, and the count goes with whether it has arrived. -/
theorem Inv.move (h : Inv cb s) (t : T) (q : WaitPhase) (calls : ℕ) (results : List ℤ)
    (count : UInt32) {mutex : Option T}
    (hheld : Mutex.Held WaitPhase.holding (update s.phase t q) mutex)
    (hphase : PhaseOk cb s.rounds q calls results.length)
    (hresults : ∀ k res, results[k]? = some res → RightResult cb k res)
    (hcalling : q.calling = false ∧ (s.phase t).calling = false)
    (hcount : count.toNat + pendingIn s.rounds (s.phase t) (s.results t).length
      = s.barrier.count.toNat + pendingIn s.rounds q results.length)
    (hlength : (s.results t).length = results.length ∨ ∀ p, (s.phase p).calling = false)
    (hreleased : ∀ p, update s.phase t q p = .release → count = 0) :
    Inv cb { s with
      barrier := { s.barrier with count := count }
      mutex := mutex
      phase := update s.phase t q
      calls := update s.calls t calls
      results := update s.results t results } := by
  have hcalling_iff : ∀ p, (update s.phase t q p).calling = (s.phase p).calling := by
    intro p
    by_cases hp : p = t
    · subst hp
      rw [update_self, hcalling.1, hcalling.2]
    · rw [update_of_ne hp]
  constructor
  case held => exact hheld
  case initCount => exact h.initCount
  case serial => exact h.serial
  case phases =>
    intro r
    by_cases hr : r = t
    · subst hr
      simpa only [update_self] using hphase
    · simpa only [update_of_ne hr] using h.phases r
  case results =>
    intro r
    by_cases hr : r = t
    · subst hr
      simpa only [update_self] using hresults
    · simpa only [update_of_ne hr] using h.results r
  case count =>
    have hsum := sum_pending_update s t q results
    have hold := h.count
    show count.toNat = ∑ r, pendingIn s.rounds (update s.phase t q r)
      (update s.results t results r).length
    omega
  case released => exact hreleased
  case full =>
    intro p hp r
    rw [hcalling_iff] at hp
    have hfull := h.full p hp r
    by_cases hr : r = t
    · subst hr
      rcases hlength with hlength | hnone
      · simpa only [update_self, ← hlength] using hfull
      · rw [hnone p] at hp
        cases hp
    · simpa only [update_of_ne hr] using hfull
  case calling =>
    intro p hp
    rw [hcalling_iff] at hp
    exact h.calling p hp
  case called =>
    intro hnone
    refine h.called fun p => ?_
    rw [← hcalling_iff]
    exact hnone p
  case error => exact h.error

theorem Inv.released_update (h : Inv cb s) (t : T) {q : WaitPhase} (hq : q ≠ .release) (p : T)
    (hp : update s.phase t q p = .release) : s.barrier.count = 0 := by
  by_cases hpt : p = t
  · subst hpt
    rw [update_self] at hp
    exact absurd hp hq
  · rw [update_of_ne hpt] at hp
    exact h.released p hp

theorem Inv.goto (h : Inv cb s) {q₀ q : WaitPhase} (ht : s.phase t = q₀) {mutex : Option T}
    (hheld : Mutex.Held WaitPhase.holding (update s.phase t q) mutex)
    (hphase : PhaseOk cb s.rounds q (s.calls t) (s.results t).length)
    (hcalling : q.calling = false ∧ q₀.calling = false)
    (hcount : pendingIn s.rounds q₀ (s.results t).length
      = pendingIn s.rounds q (s.results t).length)
    (hq : q ≠ .release) :
    Inv cb { s.goto t q with mutex := mutex } := by
  subst ht
  have hmove := h.move t q (s.calls t) (s.results t) s.barrier.count hheld hphase (h.results t)
    hcalling (by omega) (.inl rfl) (h.released_update t hq)
  rw [update_eq_self, update_eq_self] at hmove
  exact hmove

theorem Inv.call (h : Inv cb s) (ht : s.phase t = .outside) :
    Inv cb { s.goto t .lock with calls := update s.calls t (s.calls t + 1) } := by
  have hphase : _ ∧ _ := h.phase_of ht
  have hmove := h.move t .lock (s.calls t + 1) (s.results t) s.barrier.count
    (h.held.keep t (by rw [ht]; rfl)) (by simp only [PhaseOk]; omega) (h.results t)
    (by rw [ht]; exact ⟨rfl, rfl⟩) (by rw [ht]; rfl) (.inl rfl) (h.released_update t nofun)
  rw [update_eq_self] at hmove
  exact hmove

theorem Inv.lock (h : Inv cb s) (ht : s.phase t = .lock) (hfree : s.mutex = none) :
    Inv cb { s.goto t .decrement with mutex := some t } := by
  have hphase := h.phase_of ht
  exact h.goto ht (h.held.take t hfree rfl) hphase ⟨rfl, rfl⟩ rfl nofun

theorem Inv.decrement (h : Inv cb s) (ht : s.phase t = .decrement) :
    Inv cb { s.goto t (if s.barrier.count - 1 = 0 then .release
        else .condWait s.barrier.serial) with
      barrier := { s.barrier with count := s.barrier.count - 1 } } := by
  have hholding : (s.phase t).holding = true := by rw [ht]; rfl
  have hphase : _ ∧ _ := h.phase_of ht
  -- The thread itself is one of those that the count counts.
  have hpos : 1 ≤ s.barrier.count.toNat := by
    have hone : pendingIn s.rounds (s.phase t) (s.results t).length = 1 := by rw [ht]; rfl
    rw [h.count, ← hone]
    exact Finset.single_le_sum
      (f := fun r => pendingIn s.rounds (s.phase r) (s.results r).length)
      (fun _ _ => Nat.zero_le _) (Finset.mem_univ t)
  have hcount : (s.barrier.count - 1).toNat = s.barrier.count.toNat - 1 := by
    rw [UInt32.toNat_sub_of_le _ _ (by rw [UInt32.le_iff_toNat_le]; exact hpos)]
    rfl
  have hothers : ∀ (q : WaitPhase) (p : T), p ≠ t → update s.phase t q p ≠ .release := by
    intro q p hpt hp
    rw [update_of_ne hpt] at hp
    exact hpt (h.held.eq (by rw [hp]; rfl) hholding)
  have hstep : ∀ q : WaitPhase, q.holding = true → q.calling = false →
      PhaseOk cb s.rounds q (s.calls t) (s.results t).length →
      pendingIn s.rounds q (s.results t).length = 0 →
      (q = .release → s.barrier.count - 1 = 0) →
      Inv cb { s.goto t q with barrier := { s.barrier with count := s.barrier.count - 1 } } := by
    intro q hq hcalling hok hpending hrelease
    have hmove := h.move t q (s.calls t) (s.results t) (s.barrier.count - 1)
      (h.held.keep t (by rw [hholding, hq])) hok (h.results t) (by rw [ht]; exact ⟨hcalling, rfl⟩)
      (by rw [ht, hpending, hcount]; simp only [pendingIn]; omega) (.inl rfl) (by
        intro p hp
        by_cases hpt : p = t
        · subst hpt
          rw [update_self] at hp
          exact hrelease hp
        · exact absurd hp (hothers q p hpt))
    rw [update_eq_self, update_eq_self] at hmove
    exact hmove
  by_cases hzero : s.barrier.count - 1 = 0
  · rw [if_pos hzero]
    exact hstep .release rfl rfl hphase (if_pos hphase.2) fun _ => hzero
  · rw [if_neg hzero]
    refine hstep (.condWait s.barrier.serial) rfl rfl ?_ (if_pos hphase.2) nofun
    exact ⟨hphase.1, hphase.2, by rw [h.serial, hphase.2]⟩

variable {serial : UInt32}

theorem Inv.condWait (h : Inv cb s) (ht : s.phase t = .condWait serial) :
    Inv cb { s.goto t (.waiting serial) with mutex := none } := by
  obtain ⟨hcalls, hdone, hserial⟩ := h.phase_of ht
  exact h.goto ht (h.held.give t (by rw [ht]; rfl) rfl) ⟨hcalls, .inl hdone, hserial⟩ ⟨rfl, rfl⟩ rfl
    nofun

theorem Inv.relock (h : Inv cb s) (ht : s.phase t = .relock serial) (hfree : s.mutex = none) :
    Inv cb { s.goto t (.recheck serial) with mutex := some t } := by
  have hphase := h.phase_of ht
  exact h.goto ht (h.held.take t hfree rfl) hphase ⟨rfl, rfl⟩ rfl nofun

/-- A thread woken before its round is released goes back to sleep. -/
theorem Inv.recheck_same (h : Inv cb s) (ht : s.phase t = .recheck serial)
    (hsame : serial = s.barrier.serial) : Inv cb (s.goto t (.condWait serial)) := by
  obtain ⟨hcalls, hdone | hdone, hserial⟩ := h.phase_of ht
  · exact h.goto ht (h.held.keep t (by rw [ht]; rfl)) ⟨hcalls, hdone, hserial⟩ ⟨rfl, rfl⟩ rfl nofun
  · rw [h.serial, ← hdone, hserial] at hsame
    exact absurd hsame (ofNat_ne_ofNat_succ _)

/-- A thread whose round has been released finds the error of that round. -/
theorem Inv.recheck_changed (h : Inv cb s) (ht : s.phase t = .recheck serial)
    (hchanged : serial ≠ s.barrier.serial) :
    Inv cb (s.goto t (.unlock (if s.barrier.error then -1 else 0))) := by
  have hholding : (s.phase t).holding = true := by rw [ht]; rfl
  have hcalling : (s.phase t).calling = false := by rw [ht]; rfl
  obtain ⟨hcalls, hdone, hserial⟩ := h.phase_of ht
  have hdone : (s.results t).length + 1 = s.rounds := by
    refine hdone.resolve_left fun hdone => ?_
    rw [h.serial, ← hdone, hserial] at hchanged
    exact absurd rfl hchanged
  refine h.goto ht (h.held.keep t (by rw [ht]; rfl)) ⟨hcalls, hdone, ?_⟩ ⟨rfl, rfl⟩ rfl nofun
  -- The callback of this round is the last one that has been called.
  intro hnone
  have herror : s.barrier.error = true ↔ cb.Fails (s.results t).length := by
    rw [h.error]
    constructor
    · rintro ⟨j, hj, hfails⟩
      have hcalled := h.called (h.none_calling hholding hcalling) hfails.isSome
      have hlast : j = (s.results t).length := by
        by_contra hne
        exact hnone j (by omega) hfails
      exact hlast ▸ hfails
    · intro hfails
      have hcalled := h.called (h.none_calling hholding hcalling) hfails.isSome
      exact ⟨_, by omega, hfails⟩
  rw [← herror]
  cases s.barrier.error with
  | true | false => simp

theorem Inv.unlock (h : Inv cb s) {res : ℤ} (ht : s.phase t = .unlock res) :
    Inv cb { s.goto t .outside with
      mutex := none
      results := update s.results t (s.results t ++ [res]) } := by
  have hholding : (s.phase t).holding = true := by rw [ht]; rfl
  obtain ⟨hcalls, hdone, hres⟩ := h.phase_of ht
  have hne : (s.results t).length ≠ s.rounds := by omega
  have hpending : pendingIn s.rounds (s.phase t) (s.results t).length = 1 := by
    rw [ht]
    exact if_neg hne
  have hmove := h.move t .outside (s.calls t) (s.results t ++ [res]) s.barrier.count
    (h.held.give t hholding rfl)
    (by simp only [PhaseOk, List.length_append, List.length_singleton]; omega)
    (by
      intro k r hr
      rcases Nat.lt_or_ge k (s.results t).length with hk | hk
      · rw [List.getElem?_append_left hk] at hr
        exact h.results t k r hr
      · have hlast : k = (s.results t).length := by
          have hlt := (List.getElem?_eq_some_iff.mp hr).1
          rw [List.length_append, List.length_singleton] at hlt
          omega
        subst hlast
        rw [List.getElem?_concat_length, Option.some.injEq] at hr
        exact hr ▸ hres)
    (by rw [ht]; exact ⟨rfl, rfl⟩) (by rw [hpending]; rfl)
    (.inr (h.none_calling hholding (by rw [ht]; rfl))) (h.released_update t nofun)
  rw [update_eq_self] at hmove
  exact hmove

theorem Inv.spurious (h : Inv cb s) (t : T) : Inv cb (s.goto t (awake (s.phase t))) := by
  cases ht : s.phase t with
  | waiting serial =>
    have hphase := h.phase_of ht
    exact h.goto ht (h.held.keep t (by rw [ht]; rfl)) hphase ⟨rfl, rfl⟩ rfl nofun
  | _ =>
    have hsame : s.goto t (awake (s.phase t)) = s := by
      simp only [BarrierState.goto, ht, awake]
      rw [← ht, update_eq_self]
    rw [ht] at hsame
    rw [hsame]
    exact h

/-! ### The last to arrive -/

/-- With the count at zero, every other thread sleeps in the call of this round. -/
theorem Inv.all_arrived (h : Inv cb s) (ht : s.phase t = .release) (r : T) :
    (s.results r).length = s.rounds ∧ s.calls r = s.rounds + 1 ∧
      (r ≠ t → ∃ serial, (s.phase r = .waiting serial ∨ s.phase r = .relock serial) ∧
        serial = UInt32.ofNat (s.results r).length) := by
  have hzero : pendingIn s.rounds (s.phase r) (s.results r).length = 0 := by
    have hsum := h.count
    rw [h.released t ht] at hsum
    exact Finset.sum_eq_zero_iff.mp hsum.symm r (Finset.mem_univ r)
  have hphase := h.phases r
  by_cases hr : r = t
  · subst hr
    simp only [ht, PhaseOk] at hphase
    exact ⟨hphase.2, by omega, fun hne => absurd rfl hne⟩
  · have hnot : (s.phase r).holding = false := by
      by_contra hc
      exact hr (h.held.eq (by simpa using hc) (by rw [ht]; rfl))
    cases hq : s.phase r with
    | waiting serial | relock serial =>
      rw [hq] at hzero hphase
      simp only [PhaseOk] at hphase
      have hdone : (s.results r).length = s.rounds := by
        by_contra hne
        simp only [pendingIn, if_neg hne] at hzero
        cases hzero
      exact ⟨hdone, by omega, fun _ => ⟨serial, by simp, hphase.2.2⟩⟩
    | outside | lock =>
      rw [hq] at hzero
      cases hzero
    | _ =>
      rw [hq] at hnot
      cases hnot

theorem Inv.release (h : Inv cb s) (ht : s.phase t = .release) :
    Inv cb { s.goto t .broadcast with
      barrier := { s.barrier with
        serial := s.barrier.serial + 1
        count := s.barrier.initCount }
      rounds := s.rounds + 1 } := by
  have hholding : (s.phase t).holding = true := by rw [ht]; rfl
  have hquiet := h.none_calling hholding (by rw [ht]; rfl)
  have harrived := h.all_arrived ht
  have hothers : ∀ r, r ≠ t → update s.phase t .broadcast r = s.phase r :=
    fun r hr => update_of_ne hr _ _
  constructor
  case held => exact h.held.keep t (by rw [ht]; rfl)
  case initCount => exact h.initCount
  case serial =>
    rw [h.serial, UInt32.ofNat_add]
    rfl
  case phases =>
    intro r
    obtain ⟨hdone, hcalls, hsleeps⟩ := harrived r
    show PhaseOk cb (s.rounds + 1) (update s.phase t .broadcast r) (s.calls r)
      (s.results r).length
    by_cases hr : r = t
    · subst hr
      rw [update_self]
      simp only [PhaseOk]
      omega
    · rw [hothers r hr]
      obtain ⟨serial, hq | hq, hserial⟩ := hsleeps hr
      · rw [hq]
        exact ⟨by omega, .inr (by omega), hserial⟩
      · rw [hq]
        exact ⟨by omega, .inr (by omega), hserial⟩
  case results => exact h.results
  case count =>
    show s.barrier.initCount.toNat = ∑ r, pendingIn (s.rounds + 1)
      (update s.phase t .broadcast r) (s.results r).length
    have hone : ∀ r, pendingIn (s.rounds + 1) (update s.phase t .broadcast r)
        (s.results r).length = 1 := by
      intro r
      have hne : (s.results r).length ≠ s.rounds + 1 := by
        have hdone := (harrived r).1
        omega
      by_cases hr : r = t
      · subst hr
        rw [update_self]
        exact if_neg hne
      · rw [hothers r hr]
        obtain ⟨serial, hq | hq, -⟩ := (harrived r).2.2 hr
        · rw [hq]
          exact if_neg hne
        · rw [hq]
          exact if_neg hne
    rw [h.initCount, Finset.sum_congr rfl fun r _ => hone r, Finset.sum_const, smul_eq_mul,
      mul_one, Finset.card_univ]
  case released =>
    intro p hp
    by_cases hpt : p = t
    · subst hpt
      simp [BarrierState.goto] at hp
    · have hrelease : s.phase p = .release := (hothers p hpt).symm.trans hp
      exact absurd (h.held.eq (by rw [hrelease]; rfl) hholding) hpt
  case full =>
    intro _ _ r
    have hdone := (harrived r).1
    show (s.results r).length + 1 = s.rounds + 1
    omega
  case calling =>
    intro _ _ hsome
    show s.callbacks + 1 = s.rounds + 1
    rw [h.called hquiet hsome]
  case called =>
    intro hnone
    have hself := hnone t
    simp [BarrierState.goto, WaitPhase.calling] at hself
  case error => exact h.error

theorem Inv.broadcast (h : Inv cb s) (ht : s.phase t = .broadcast) :
    Inv cb { s with phase := update (fun r => awake (s.phase r)) t .callback } := by
  have hsleep : ∀ r, r ≠ t →
      update (fun r => awake (s.phase r)) t .callback r = awake (s.phase r) :=
    fun r hr => update_of_ne hr _ _
  -- A thread that is woken stays in every respect what it was.
  have hkeeps : ∀ {A : Type} (f : WaitPhase → A),
      (∀ serial, f (.waiting serial) = f (.relock serial)) → f .broadcast = f .callback → ∀ r,
        f (update (fun r => awake (s.phase r)) t .callback r) = f (s.phase r) := by
    intro A f hwaiting hlast r
    by_cases hr : r = t
    · subst hr
      rw [update_self, ht, hlast]
    · rw [hsleep r hr]
      cases s.phase r with
      | waiting serial => exact (hwaiting serial).symm
      | _ => rfl
  have hcalling := hkeeps WaitPhase.calling (fun _ => rfl) rfl
  constructor
  case held => exact h.held.congr (hkeeps WaitPhase.holding (fun _ => rfl) rfl)
  case initCount => exact h.initCount
  case serial => exact h.serial
  case phases =>
    intro r
    have hsame := hkeeps (fun q => PhaseOk cb s.rounds q (s.calls r) (s.results r).length)
      (fun _ => rfl) rfl r
    exact hsame.mpr (h.phases r)
  case results => exact h.results
  case count =>
    rw [h.count]
    refine Finset.sum_congr rfl fun r _ => ?_
    exact (hkeeps (fun q => pendingIn s.rounds q (s.results r).length) (fun _ => rfl) rfl r).symm
  case released =>
    intro p hp
    have hsame := hkeeps (fun q => q = .release) (fun _ => by simp) (by simp) p
    exact h.released p (hsame.mp hp)
  case full => exact fun p hp => h.full p ((hcalling p).symm.trans hp)
  case calling => exact fun p hp => h.calling p ((hcalling p).symm.trans hp)
  case called => exact fun hnone => h.called fun p => (hcalling p).symm.trans (hnone p)
  case error => exact h.error

/-- The end of the callback: what it returned is the result of this thread, and `error` says
it to the others. -/
theorem Inv.callback_end (h : Inv cb s) (ht : s.phase t = .callback) {res : ℤ} {error : Bool}
    {callbacks : ℕ} (hcallbacks : cb.isSome = true → callbacks = s.rounds)
    (hres : RightResult cb (s.results t).length res)
    (herror : error = true ↔ ∃ j < callbacks, cb.Fails j) :
    Inv cb { s.goto t (.unlock res) with
      barrier := { s.barrier with error := error }
      callbacks := callbacks } := by
  have hholding : (s.phase t).holding = true := by rw [ht]; rfl
  obtain ⟨hcalls, hdone⟩ := h.phase_of ht
  have hothers : ∀ r, r ≠ t → update s.phase t (.unlock res) r = s.phase r :=
    fun r hr => update_of_ne hr _ _
  have hquiet : ∀ r, (update s.phase t (.unlock res) r).calling = false := by
    intro r
    by_cases hr : r = t
    · subst hr
      rw [update_self]
      rfl
    · rw [hothers r hr]
      by_contra hc
      exact hr (h.held.eq (WaitPhase.holding_of_calling (by simpa using hc)) hholding)
  constructor
  case held => exact h.held.keep t (by rw [ht]; rfl)
  case initCount => exact h.initCount
  case serial => exact h.serial
  case phases =>
    intro r
    show PhaseOk cb s.rounds (update s.phase t (.unlock res) r) (s.calls r) _
    by_cases hr : r = t
    · subst hr
      rw [update_self]
      exact ⟨hcalls, hdone, hres⟩
    · rw [hothers r hr]
      exact h.phases r
  case results => exact h.results
  case count =>
    rw [h.count]
    refine Finset.sum_congr rfl fun r _ => ?_
    by_cases hr : r = t
    · subst hr
      simp only [BarrierState.goto, update_self, ht]
      rfl
    · simp only [BarrierState.goto, hothers r hr]
  case released =>
    intro p hp
    have hq : WaitPhase.unlock res ≠ .release := nofun
    exact h.released_update t hq p hp
  case full =>
    intro p hp
    cases (hquiet p).symm.trans hp
  case calling =>
    intro p hp
    cases (hquiet p).symm.trans hp
  case called => exact fun _ hsome => hcallbacks hsome
  case error => exact herror

theorem Inv.callback (h : Inv cb s) (ht : s.phase t = .callback) :
    Inv cb (s.callCallback cb t) := by
  have hfull := h.full t (by rw [ht]; rfl) t
  cases cb with
  | none =>
    have hnone : ∀ j, ¬SbBarrierCb.Fails none j := by
      rintro j ⟨f, hf, -⟩
      cases hf
    refine h.callback_end ht nofun ?_ h.error
    intro _
    simp [hnone, sbBarrierSerialThread]
  | some f =>
    have hcalls := h.calling t (by rw [ht]; rfl) rfl
    have hround : s.callbacks = (s.results t).length := by omega
    have hfails : ∀ j, SbBarrierCb.Fails (some f) j ↔ f j ≠ 0 := by
      intro j
      constructor
      · rintro ⟨f', hf', hne⟩
        exact Option.some.inj hf' ▸ hne
      · exact fun hne => ⟨f, rfl, hne⟩
    simp only [callCallback]
    by_cases hfail : f s.callbacks ≠ 0
    · rw [if_pos hfail]
      refine h.callback_end ht (fun _ => hcalls) ?_ ?_
      · intro _
        simp [hfails, ← hround, hfail]
      · exact ⟨fun _ => ⟨s.callbacks, by omega, (hfails _).mpr hfail⟩, fun _ => rfl⟩
    · rw [if_neg hfail]
      refine h.callback_end ht (fun _ => hcalls) ?_ ?_
      · intro _
        simpa [hfails, ← hround, sbBarrierSerialThread] using hfail
      · rw [h.error]
        constructor
        · rintro ⟨j, hj, hj'⟩
          exact ⟨j, by omega, hj'⟩
        · rintro ⟨j, hj, hj'⟩
          refine ⟨j, ?_, hj'⟩
          have hne : j ≠ s.callbacks := by
            rintro rfl
            exact hfail ((hfails _).mp hj')
          omega

/-! ### Runs -/

theorem Inv.stepThread (h : Inv cb s) (t : T) : Inv cb (s.stepThread cb t) := by
  unfold BarrierState.stepThread
  cases ht : s.phase t with
  | outside | waiting serial => exact h
  | lock =>
    by_cases hfree : s.mutex = none
    · rw [if_pos hfree]
      exact h.lock ht hfree
    · rw [if_neg hfree]
      exact h
  | decrement => exact h.decrement ht
  | release => exact h.release ht
  | broadcast => exact h.broadcast ht
  | callback => exact h.callback ht
  | condWait serial => exact h.condWait ht
  | relock serial =>
    dsimp only
    by_cases hfree : s.mutex = none
    · rw [if_pos hfree]
      exact h.relock ht hfree
    · rw [if_neg hfree]
      exact h
  | recheck serial =>
    dsimp only
    by_cases hsame : serial = s.barrier.serial
    · rw [if_pos hsame]
      exact h.recheck_same ht hsame
    · rw [if_neg hsame]
      exact h.recheck_changed ht hsame
  | unlock res => exact h.unlock ht

theorem Inv.step (h : Inv cb s) (e : BarrierEvent T) : Inv cb (s.step cb e) := by
  cases e with
  | call t =>
    unfold BarrierState.step
    dsimp only
    by_cases hout : s.phase t = .outside
    · rw [if_pos hout]
      exact h.call hout
    · rw [if_neg hout]
      exact h
  | step t => exact h.stepThread t
  | spurious t => exact h.spurious t

/-- **The barrier.**  Along every interleaving of the calls of `init_count` threads: nobody
returns from a call before all have begun theirs; the callback, if there is one, is called
once in each round, with every thread in its call of that round; and as long as no callback
has failed before, the results of a round are negative exactly if its callback fails. -/
theorem barrier_keeps_in_step (cb : SbBarrierCb) {n : UInt32} {barrier : SbBarrier}
    (hinit : sbBarrierInit n = some barrier) (hcard : Fintype.card T = n.toNat)
    (events : List (BarrierEvent T)) :
    let s := run cb barrier events
    (∀ t t', (s.results t).length ≤ s.calls t') ∧
    (∀ t, s.phase t = .callback → ∀ t', s.calls t' = s.rounds ∧
      (s.results t').length + 1 = s.rounds) ∧
    (cb.isSome = true →
      (∀ t, s.phase t = .callback → s.callbacks + 1 = s.rounds) ∧
      (∀ t, (s.results t).length ≤ s.callbacks ∧ s.callbacks ≤ s.calls t)) ∧
    (∀ t k res, (s.results t)[k]? = some res → (∀ j < k, ¬cb.Fails j) →
      (res < 0 ↔ cb.Fails k)) := by
  intro s
  have h : Inv cb s :=
    Schedule.invariant (P := Inv cb) (fun _ e hs => hs.step e) (inv_start hinit hcard) events
  refine ⟨fun t t' => ?_, fun t ht t' => ?_, fun hsome => ⟨fun t ht => ?_, fun t => ?_⟩,
    fun t k res hres => h.results t k res hres⟩
  · have hthis := (h.phases t).bounds
    have hother := (h.phases t').bounds
    omega
  · have hfull := h.full t (by rw [ht]; rfl) t'
    have hbounds := (h.phases t').bounds
    omega
  · exact h.calling t (by rw [ht]; rfl) hsome
  · have hbounds := (h.phases t).bounds
    by_cases hquiet : ∀ p, (s.phase p).calling = false
    · have hcalled := h.called hquiet hsome
      omega
    · simp only [not_forall, Bool.not_eq_false] at hquiet
      obtain ⟨p, hp⟩ := hquiet
      have hcalling := h.calling p hp hsome
      have hfull := h.full p hp t
      omega

/-- Two threads and a callback that fails: both get a negative result. -/
theorem barrier_of_two_fails :
    let s : BarrierState Bool := run (some fun _ => 1) ⟨2, 2, 0, false⟩
      [.call true, .call false, .step true, .step true, .spurious true, .step true, .step false,
        .step false, .step true, .step true, .step false, .step false, .step false, .step false,
        .step true, .step true, .step true]
    (s.results true)[0]? = some (-1) ∧ (s.results false)[0]? = some (-1) ∧
      ((-1 : ℤ) < 0 ↔ SbBarrierCb.Fails (some fun _ => 1) 0) := by
  have hinit : sbBarrierInit 2 = some ⟨2, 2, 0, false⟩ := rfl
  have hright := (barrier_keeps_in_step (some fun _ => 1) hinit rfl
    [.call true, .call false, .step true, .step true, .spurious true, .step true, .step false,
      .step false, .step true, .step true, .step false, .step false, .step false, .step false,
      .step true, .step true, .step true]).2.2.2 true 0 (-1) rfl nofun
  exact ⟨rfl, rfl, hright⟩

end BarrierState

end Sysbench
