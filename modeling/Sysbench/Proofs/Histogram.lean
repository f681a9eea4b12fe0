/-
No latency is lost or counted twice.

Increments run between any two fetch-and-stores of a reporting function, so at any
moment the updates ever made to a bucket are spread over four places: its cells in
the slots, what has been fetched but not yet added on, `cumulative_array`, and what
checkpoints have taken away.  `account` adds the four up and `Conserved` says they
make up the number of updates, up to the wrap-around of the 64-bit cells.

What has been fetched but not added on exists only in
`sb_histogram_get_pct_intermediate`, which goes through `temp_array`.  That array is
not cleared between two reports, so during its first loop only the buckets already
passed count: the rest still hold the previous report.
-/
import Mathlib.Algebra.BigOperators.ModEq
import Sysbench.Lib.Wrapping
import Sysbench.Model.Histogram

namespace Sysbench

open Function Wrapping

variable {size : ℕ}

namespace Histogram

/-! ### What a bucket holds in the slots -/

/-- The count of a bucket over all slots. -/
def inSlots (h : Histogram size) (j : Fin size) : ℕ := ∑ s, (h.intermSlots s j).toNat

theorem inSlots_setSlot_self (h : Histogram size) (s : Fin histogramNslots) (i : Fin size)
    (v : UInt64) :
    (h.setSlot s i v).inSlots i + (h.intermSlots s i).toNat = h.inSlots i + v.toNat := by
  have hcol : (fun s' => ((h.setSlot s i v).intermSlots s' i).toNat)
      = update (fun s' => (h.intermSlots s' i).toNat) s v.toNat := by
    funext s'
    by_cases hs : s' = s
    · subst hs
      simp [setSlot]
    · simp [setSlot, hs]
  unfold inSlots
  rw [hcol]
  exact sum_update _ s v.toNat

variable {i j : Fin size}

theorem inSlots_setSlot_ne (h : Histogram size) (s : Fin histogramNslots) (v : UInt64)
    (hne : j ≠ i) : (h.setSlot s i v).inSlots j = h.inSlots j := by
  refine Finset.sum_congr rfl fun s' _ => ?_
  by_cases hs : s' = s
  · subst hs
    simp [setSlot, hne]
  · simp [setSlot, hs]

/-! ### What a bucket holds in an array -/

/-- The array a merge goes into. -/
def arrayOf (h : Histogram size) : Target → Fin size → UInt64
  | .temp => h.tempArray
  | .cumulative => h.cumulativeArray

theorem arrayOf_addTo_self (h : Histogram size) (target : Target) (i : Fin size) (t : UInt64) :
    (h.addTo target i t).arrayOf target i = h.arrayOf target i + t := by
  cases target <;> simp [addTo, arrayOf]

theorem arrayOf_addTo_ne (h : Histogram size) (target : Target) (t : UInt64) (hne : j ≠ i) :
    (h.addTo target i t).arrayOf target j = h.arrayOf target j := by
  cases target <;> simp [addTo, arrayOf, hne]

theorem inSlots_addTo (h : Histogram size) (target : Target) (i j : Fin size) (t : UInt64) :
    (h.addTo target i t).inSlots j = h.inSlots j := by
  cases target <;> rfl

/-- A round of a merging loop moves one cell into the array: bucket by bucket the two
together keep their count, up to a wrap of the array's cell. -/
theorem drainCell_account (target : Target) (s : Fin histogramNslots) (h : Histogram size)
    (n : UInt64) (i j : Fin size) :
    Dropped 64
      ((drainCell target s (h, n) i).1.inSlots j
        + ((drainCell target s (h, n) i).1.arrayOf target j).toNat)
      (h.inSlots j + (h.arrayOf target j).toNat) := by
  simp only [drainCell, inSlots_addTo]
  by_cases hij : j = i
  · subst hij
    have hmove := inSlots_setSlot_self h s j 0
    have hadd := dropped_uint64_add (h.arrayOf target j) (h.intermSlots s j)
    rw [arrayOf_addTo_self]
    have harr : (h.setSlot s j 0).arrayOf target j = h.arrayOf target j := by
      cases target <;> rfl
    rw [harr]
    obtain ⟨k, hk⟩ := hadd
    refine ⟨k, ?_⟩
    have h0 : (0 : UInt64).toNat = 0 := rfl
    omega
  · rw [arrayOf_addTo_ne _ _ _ hij, inSlots_setSlot_ne _ _ _ hij]
    cases target <;> exact Dropped.refl _ _

/-- The running count of a merging loop goes up with the array's total. -/
theorem drainCell_nevents (target : Target) (s : Fin histogramNslots) (h : Histogram size)
    (n : UInt64) (i : Fin size)
    (hn : n.toNat ≡ ∑ j, (h.arrayOf target j).toNat [MOD 2 ^ 64]) :
    (drainCell target s (h, n) i).2.toNat
      ≡ ∑ j, ((drainCell target s (h, n) i).1.arrayOf target j).toNat [MOD 2 ^ 64] := by
  have hcol : (fun j => ((drainCell target s (h, n) i).1.arrayOf target j).toNat)
      = update (fun j => (h.arrayOf target j).toNat) i
          (h.arrayOf target i + h.intermSlots s i).toNat := by
    funext j
    by_cases hij : j = i
    · subst hij
      simp only [drainCell, arrayOf_addTo_self, update_self]
      cases target <;> rfl
    · simp only [drainCell, arrayOf_addTo_ne _ _ _ hij, update_of_ne hij]
      cases target <;> rfl
  have hsum : ∑ j, ((drainCell target s (h, n) i).1.arrayOf target j).toNat
        + (h.arrayOf target i).toNat
      = ∑ j, (h.arrayOf target j).toNat + (h.arrayOf target i + h.intermSlots s i).toNat := by
    rw [hcol]
    exact sum_update _ i _
  have hcell := (dropped_uint64_add (h.arrayOf target i) (h.intermSlots s i)).mod_eq
  have hcount := (dropped_uint64_add n (h.intermSlots s i)).mod_eq
  show (n + h.intermSlots s i).toNat ≡ _ [MOD 2 ^ 64]
  unfold Nat.ModEq at hn ⊢
  omega

/-! ### The first loop

`passed h i j` is what `temp_array` holds for bucket `j` once the loop has passed the
buckets below `i`.
-/

def passed (h : Histogram size) (i : ℕ) (j : Fin size) : ℕ :=
  if j.val < i then (h.tempArray j).toNat else 0

theorem firstCell_passed_self (h : Histogram size) (n : UInt64) (i : Fin size) :
    (firstCell (h, n) i).1.passed (i + 1) i = (h.intermSlots 0 i).toNat := by
  simp [passed, firstCell]

theorem firstCell_passed_ne (h : Histogram size) (n : UInt64) (hne : j ≠ i) :
    (firstCell (h, n) i).1.passed (i + 1) j = h.passed i j := by
  have htemp : (firstCell (h, n) i).1.tempArray j = h.tempArray j := by
    simp [firstCell, hne]
  unfold passed
  rw [htemp]
  by_cases hlt : j.val < i.val
  · rw [if_pos hlt, if_pos (by omega)]
  · rw [if_neg hlt, if_neg (by omega)]

theorem firstCell_inSlots (h : Histogram size) (n : UInt64) (i j : Fin size) :
    (firstCell (h, n) i).1.inSlots j = (h.setSlot 0 i 0).inSlots j := rfl

theorem firstCell_account (h : Histogram size) (n : UInt64) (i j : Fin size) :
    (firstCell (h, n) i).1.inSlots j + (firstCell (h, n) i).1.passed (i + 1) j
      = h.inSlots j + h.passed i j := by
  rw [firstCell_inSlots]
  by_cases hij : j = i
  · subst hij
    have hmove := inSlots_setSlot_self h 0 j 0
    have h0 : (0 : UInt64).toNat = 0 := rfl
    rw [firstCell_passed_self]
    unfold passed
    rw [if_neg (Nat.lt_irrefl _)]
    omega
  · rw [firstCell_passed_ne h n hij, inSlots_setSlot_ne h 0 0 hij]

theorem firstCell_nevents (h : Histogram size) (n : UInt64) (i : Fin size)
    (hn : n.toNat ≡ ∑ j, h.passed i j [MOD 2 ^ 64]) :
    (firstCell (h, n) i).2.toNat
      ≡ ∑ j, (firstCell (h, n) i).1.passed (i + 1) j [MOD 2 ^ 64] := by
  have hcol : (fun j => (firstCell (h, n) i).1.passed (i + 1) j)
      = update (fun j => h.passed i j) i (h.intermSlots 0 i).toNat := by
    funext j
    by_cases hij : j = i
    · subst hij
      rw [firstCell_passed_self, update_self]
    · rw [firstCell_passed_ne h n hij, update_of_ne hij]
  have hsum : ∑ j, (firstCell (h, n) i).1.passed (i + 1) j + h.passed i i
      = ∑ j, h.passed i j + (h.intermSlots 0 i).toNat := by
    rw [hcol]
    exact sum_update _ i _
  have hself : h.passed i i = 0 := if_neg (Nat.lt_irrefl _)
  have hcount := (dropped_uint64_add n (h.intermSlots 0 i)).mod_eq
  show (n + h.intermSlots 0 i).toNat ≡ _ [MOD 2 ^ 64]
  unfold Nat.ModEq at hn ⊢
  omega

end Histogram

/-! ### The account of a bucket -/

namespace HistMachine

open Histogram

/-- What has been fetched from a bucket and not yet added to `cumulative_array`. -/
def inFlight (m : HistMachine size) (j : Fin size) : ℕ :=
  match m.phase with
  | .firstSlot _ i _ => m.hist.passed i j
  | .drain (.getPctIntermediate _) _ _ _ => (m.hist.tempArray j).toNat
  | _ => 0

/-- Everything accounted for in a bucket. -/
def account (m : HistMachine size) (j : Fin size) : ℕ :=
  m.hist.inSlots j + m.inFlight j + (m.hist.cumulativeArray j).toNat + m.resets j

/-- The total of `cumulative_array`. -/
def cumulativeTotal (h : Histogram size) : ℕ := ∑ j, (h.cumulativeArray j).toNat

/-- The running counts agree with the arrays they count. -/
def Counted (m : HistMachine size) : Prop :=
  match m.phase with
  | .idle => m.hist.cumulativeNevents.toNat ≡ cumulativeTotal m.hist [MOD 2 ^ 64]
  | .firstSlot _ i n =>
    m.hist.cumulativeNevents.toNat ≡ cumulativeTotal m.hist [MOD 2 ^ 64] ∧
      n.toNat ≡ ∑ j, m.hist.passed i j [MOD 2 ^ 64]
  | .drain (.getPctIntermediate _) _ _ n =>
    m.hist.cumulativeNevents.toNat ≡ cumulativeTotal m.hist [MOD 2 ^ 64] ∧
      n.toNat ≡ ∑ j, (m.hist.tempArray j).toNat [MOD 2 ^ 64]
  | .drain _ _ _ n => n.toNat ≡ cumulativeTotal m.hist [MOD 2 ^ 64]

/-- Every update is accounted for, every event counted, and a reporting function in
progress holds the lock. -/
structure Conserved (m : HistMachine size) : Prop where
  account : ∀ j, Dropped 64 (m.account j) (m.updates j)
  counted : m.Counted
  locked : m.phase ≠ .idle → m.hist.lock = true

theorem conserved_init : Conserved (HistMachine.init size) where
  account := by
    intro j
    have hz : (HistMachine.init size).account j = 0 := by
      simp [HistMachine.account, inFlight, inSlots, HistMachine.init, Histogram.init]
    rw [hz]
    exact Dropped.refl _ _
  counted := by
    simp [Counted, HistMachine.init, Histogram.init, cumulativeTotal, Nat.ModEq]
  locked := fun hne => absurd rfl hne

/-! ### Each event keeps the account -/

theorem increment_account (h : Histogram size) (s : Fin histogramNslots) (i j : Fin size) :
    Dropped 64 ((h.increment s i).inSlots j) (h.inSlots j + if j = i then 1 else 0) := by
  unfold increment
  by_cases hij : j = i
  · subst hij
    rw [if_pos rfl]
    have hmove := inSlots_setSlot_self h s j (h.intermSlots s j + 1)
    obtain ⟨k, hk⟩ := dropped_uint64_add (h.intermSlots s j) 1
    have h1 : (1 : UInt64).toNat = 1 := rfl
    exact ⟨k, by omega⟩
  · rw [if_neg hij, inSlots_setSlot_ne h s _ hij, Nat.add_zero]
    exact Dropped.refl _ _

variable {m : HistMachine size}

theorem conserved_update (hm : Conserved m) (s : Fin histogramNslots) (i : Fin size) :
    Conserved (histStep m (.update s i)) := by
  refine ⟨?_, hm.counted, hm.locked⟩
  intro j
  have hslots := increment_account m.hist s i j
  have hacc := hm.account j
  have hupd : (histStep m (.update s i)).updates j = m.updates j + if j = i then 1 else 0 := by
    by_cases hij : j = i
    · subst hij
      simp [histStep]
    · simp [histStep, hij]
  rw [hupd]
  -- Only the slots change: what is in flight or already added is somewhere else.
  have hsplit : Dropped 64 ((histStep m (.update s i)).account j)
      (m.account j + if j = i then 1 else 0) := by
    have hother := hslots.add_right
      (m.inFlight j + (m.hist.cumulativeArray j).toNat + m.resets j)
    have hflight : (histStep m (.update s i)).inFlight j = m.inFlight j := rfl
    show Dropped 64 ((m.hist.increment s i).inSlots j + (histStep m (.update s i)).inFlight j
      + (m.hist.cumulativeArray j).toNat + m.resets j) _
    obtain ⟨k, hk⟩ := hother
    exact ⟨k, by unfold HistMachine.account; omega⟩
  exact hsplit.trans (hacc.add_right _)

/-- Only a free lock is taken, and then no other report is under way. -/
theorem wrlock_some {h h' : Histogram size} (hw : h.wrlock = some h') :
    h.lock = false ∧ h' = { h with lock := true } := by
  unfold wrlock at hw
  cases hl : h.lock with
  | true => simp [hl] at hw
  | false =>
    simp only [hl, Bool.false_eq_true, if_false, Option.some.injEq] at hw
    exact ⟨rfl, hw.symm⟩

theorem passed_zero (h : Histogram size) (j : Fin size) : h.passed 0 j = 0 :=
  if_neg (Nat.not_lt_zero _)

theorem begin_account (m : HistMachine size) (op : HistOp) (j : Fin size) :
    (m.begin { m.hist with lock := true } op).account j
      = m.hist.inSlots j + 0 + (m.hist.cumulativeArray j).toNat + m.resets j := by
  cases op with
  | getPctIntermediate p =>
    rfl
  | _ => rfl

theorem begin_counted (m : HistMachine size) (op : HistOp)
    (h : m.hist.cumulativeNevents.toNat ≡ cumulativeTotal m.hist [MOD 2 ^ 64]) :
    (m.begin { m.hist with lock := true } op).Counted := by
  cases op with
  | getPctIntermediate p =>
    refine ⟨h, ?_⟩
    simp only [passed_zero, Finset.sum_const_zero]
    rfl
  | _ => exact h

theorem conserved_start (hm : Conserved m) (op : HistOp) : Conserved (histStep m (.start op)) := by
  cases hw : m.hist.wrlock with
  | none => simpa only [histStep, hw] using hm
  | some h =>
    obtain ⟨hfree, rfl⟩ := wrlock_some hw
    have hidle : m.phase = .idle := by
      by_contra hc
      rw [hm.locked hc] at hfree
      exact absurd hfree (by simp)
    have hacc := hm.account
    have hcount := hm.counted
    simp only [HistMachine.account, inFlight, hidle] at hacc
    simp only [Counted, hidle] at hcount
    simp only [histStep, hw]
    refine ⟨?_, begin_counted m op hcount, ?_⟩
    · intro j
      rw [begin_account]
      have hupd : (m.begin { m.hist with lock := true } op).updates = m.updates := by
        cases op <;> rfl
      rw [hupd]
      exact hacc j
    · intro _
      cases op <;> rfl

/-! ### The steps of the lock holder -/

variable {i : ℕ} {n : UInt64}

theorem conserved_firstSlot (hm : Conserved m) {p : ℚ} (hphase : m.phase = .firstSlot p i n) :
    Conserved m.tick := by
  have hacc := hm.account
  have hcount := hm.counted
  have hlock := hm.locked (by rw [hphase]; simp)
  simp only [HistMachine.account, inFlight, hphase] at hacc
  simp only [Counted, hphase] at hcount
  by_cases hi : i < size
  · simp only [tick, hphase, dif_pos hi]
    refine ⟨?_, ⟨hcount.1, firstCell_nevents m.hist n ⟨i, hi⟩ hcount.2⟩, fun _ => hlock⟩
    intro j
    have hcell := firstCell_account m.hist n ⟨i, hi⟩ j
    have hj := hacc j
    show Dropped 64 ((firstCell (m.hist, n) ⟨i, hi⟩).1.inSlots j
      + (firstCell (m.hist, n) ⟨i, hi⟩).1.passed (i + 1) j
      + (m.hist.cumulativeArray j).toNat + m.resets j) (m.updates j)
    rw [hcell]
    exact hj
  · -- Every bucket is passed, so `temp_array` now holds slot 0 throughout.
    have hall : ∀ j : Fin size, m.hist.passed i j = (m.hist.tempArray j).toNat := by
      intro j
      exact if_pos (by omega)
    simp only [tick, hphase, dif_neg hi]
    simp only [hall] at hacc hcount
    exact ⟨hacc, hcount, fun _ => hlock⟩

variable {op : HistOp} {s : ℕ}

/-- Of a report that merges straight into `cumulative_array` nothing is in flight. -/
theorem account_merge (hphase : m.phase = .drain op s i n) (ht : op.target = .cumulative)
    (j : Fin size) :
    m.account j = m.hist.inSlots j + (m.hist.cumulativeArray j).toNat + m.resets j := by
  have hflight : m.inFlight j = 0 := by
    cases op <;> simp_all [inFlight, HistOp.target]
  rw [HistMachine.account, hflight, Nat.add_zero]

theorem counted_merge (hphase : m.phase = .drain op s i n) (ht : op.target = .cumulative) :
    m.Counted ↔ n.toNat ≡ cumulativeTotal m.hist [MOD 2 ^ 64] := by
  cases op <;> simp_all [Counted, HistOp.target]

theorem conserved_drainCell (hm : Conserved m) (hphase : m.phase = .drain op s i n)
    (hs : s < histogramNslots) (hi : i < size) : Conserved m.tick := by
  have hlock := hm.locked (by rw [hphase]; simp)
  have htick : m.tick = { m with
      hist := (drainCell op.target ⟨s, hs⟩ (m.hist, n) ⟨i, hi⟩).1
      phase := .drain op s (i + 1) (drainCell op.target ⟨s, hs⟩ (m.hist, n) ⟨i, hi⟩).2 } := by
    simp only [tick, hphase, dif_pos hs, dif_pos hi]
  have hphase' : m.tick.phase = .drain op s (i + 1)
      (drainCell op.target ⟨s, hs⟩ (m.hist, n) ⟨i, hi⟩).2 := by rw [htick]
  have hlock' : m.tick.phase ≠ .idle → m.tick.hist.lock = true := by
    intro _
    rw [htick]
    cases htgt : op.target <;> simpa only [drainCell, Histogram.addTo, setSlot] using hlock
  cases htgt : op.target with
  | temp =>
    obtain ⟨p, rfl⟩ : ∃ p, op = .getPctIntermediate p := by
      cases op <;> simp_all [HistOp.target]
    have hacc := hm.account
    have hcount := hm.counted
    simp only [HistMachine.account, inFlight, hphase] at hacc
    simp only [Counted, hphase] at hcount
    refine ⟨?_, ?_, hlock'⟩
    · intro j
      rw [htick]
      have hrest := (drainCell_account .temp ⟨s, hs⟩ m.hist n ⟨i, hi⟩ j).add_right
        ((m.hist.cumulativeArray j).toNat + m.resets j)
      rw [← Nat.add_assoc, ← Nat.add_assoc] at hrest
      exact hrest.trans (hacc j)
    · rw [htick]
      exact ⟨hcount.1, drainCell_nevents .temp ⟨s, hs⟩ m.hist n ⟨i, hi⟩ hcount.2⟩
  | cumulative =>
    refine ⟨?_, ?_, hlock'⟩
    · intro j
      have hacc := hm.account j
      rw [account_merge hphase htgt] at hacc
      rw [account_merge hphase' htgt, htick, htgt]
      have hrest := (drainCell_account .cumulative ⟨s, hs⟩ m.hist n ⟨i, hi⟩ j).add_right
        (m.resets j)
      exact hrest.trans hacc
    · have hcount := (counted_merge hphase htgt).mp hm.counted
      rw [counted_merge hphase' htgt, htick, htgt]
      exact drainCell_nevents .cumulative ⟨s, hs⟩ m.hist n ⟨i, hi⟩ hcount

theorem conserved_nextSlot (hm : Conserved m) (hphase : m.phase = .drain op s i n)
    (hs : s < histogramNslots) (hi : ¬ i < size) : Conserved m.tick := by
  have hacc := hm.account
  have hcount := hm.counted
  have hlock := hm.locked (by rw [hphase]; simp)
  simp only [HistMachine.account, inFlight, hphase] at hacc
  simp only [Counted, hphase] at hcount
  simp only [tick, hphase, dif_pos hs, dif_neg hi]
  cases op <;> exact ⟨hacc, hcount, fun _ => hlock⟩

/-! ### The end of a report -/

theorem sum_add_modEq (a b : Fin size → UInt64) :
    ∑ j, (a j + b j).toNat ≡ ∑ j, (a j).toNat + ∑ j, (b j).toNat [MOD 2 ^ 64] := by
  rw [← Finset.sum_add_distrib]
  exact Nat.ModEq.sum fun j _ => (dropped_uint64_add (a j) (b j)).mod_eq

/-- `sb_histogram_print` leaves the counters alone, whether it unlocks or not. -/
theorem finishPrint_snd (h : Histogram size) :
    h.finishPrint.2 = h ∨ h.finishPrint.2 = h.unlock := by
  unfold finishPrint
  by_cases hz : h.maxcnt = 0
  · left
    rw [if_pos hz]
  · right
    rw [if_neg hz]

theorem conserved_finish_intermediate (hm : Conserved m) {p : ℚ}
    (hphase : m.phase = .drain (.getPctIntermediate p) s i n) :
    Conserved (m.finish (.getPctIntermediate p) n) := by
  have hacc := hm.account
  have hcount := hm.counted
  simp only [HistMachine.account, inFlight, hphase] at hacc
  simp only [Counted, hphase] at hcount
  refine ⟨?_, ?_, fun hne => absurd rfl hne⟩
  · intro j
    have hadd := (dropped_uint64_add (m.hist.cumulativeArray j) (m.hist.tempArray j)).add_right
      (m.hist.inSlots j + m.resets j)
    refine Dropped.trans ?_ (hacc j)
    show Dropped 64 (m.hist.inSlots j + 0
      + (m.hist.cumulativeArray j + m.hist.tempArray j).toNat + m.resets j) _
    obtain ⟨k, hk⟩ := hadd
    exact ⟨k, by omega⟩
  · show (m.hist.cumulativeNevents + n).toNat
      ≡ ∑ j, (m.hist.cumulativeArray j + m.hist.tempArray j).toNat [MOD 2 ^ 64]
    calc (m.hist.cumulativeNevents + n).toNat
        ≡ m.hist.cumulativeNevents.toNat + n.toNat [MOD 2 ^ 64] :=
          (dropped_uint64_add _ _).mod_eq
      _ ≡ cumulativeTotal m.hist + ∑ j, (m.hist.tempArray j).toNat [MOD 2 ^ 64] :=
          hcount.1.add hcount.2
      _ ≡ ∑ j, (m.hist.cumulativeArray j + m.hist.tempArray j).toNat [MOD 2 ^ 64] :=
          (sum_add_modEq _ _).symm

/-- The reports that merge straight into `cumulative_array` leave it alone at the end,
or hand it over to the account of the checkpoints. -/
theorem conserved_finish_merge (hm : Conserved m) (hphase : m.phase = .drain op s i n)
    (ht : op.target = .cumulative) : Conserved (m.finish op n) := by
  have hacc := hm.account
  simp only [account_merge hphase ht] at hacc
  have hcount := (counted_merge hphase ht).mp hm.counted
  have hkept : ∀ h : Histogram size, h.intermSlots = m.hist.intermSlots →
      h.cumulativeArray = m.hist.cumulativeArray → h.cumulativeNevents = n →
      Conserved { m with hist := h, phase := .idle } := by
    intro h hslots harr hn
    refine ⟨?_, ?_, fun hne => absurd rfl hne⟩
    · intro j
      have hj := hacc j
      unfold HistMachine.account inFlight inSlots at *
      simp only [hslots, harr, Nat.add_zero]
      exact hj
    · show h.cumulativeNevents.toNat ≡ ∑ j, (h.cumulativeArray j).toNat [MOD 2 ^ 64]
      rw [hn, harr]
      exact hcount
  cases op with
  | getPctIntermediate p => simp [HistOp.target] at ht
  | getPctCumulative p => exact hkept _ rfl rfl rfl
  | print =>
    show Conserved { m with hist := (m.hist.finishMerge n).finishPrint.2, phase := .idle }
    rcases finishPrint_snd (m.hist.finishMerge n) with h | h
    · rw [h]
      exact hkept _ rfl rfl rfl
    · rw [h]
      exact hkept _ rfl rfl rfl
  | getPctCheckpoint p =>
    refine ⟨?_, ?_, fun hne => absurd rfl hne⟩
    · intro j
      have hj := hacc j
      show Dropped 64 (m.hist.inSlots j + 0 + (0 : UInt64).toNat
        + (m.resets j + (m.hist.cumulativeArray j).toNat)) (m.updates j)
      have h0 : (0 : UInt64).toNat = 0 := rfl
      obtain ⟨k, hk⟩ := hj
      exact ⟨k, by omega⟩
    · show (0 : UInt64).toNat ≡ ∑ j : Fin size, (0 : UInt64).toNat [MOD 2 ^ 64]
      simp [Nat.ModEq]

theorem conserved_tick (hm : Conserved m) : Conserved m.tick := by
  cases hphase : m.phase with
  | idle => simpa only [tick, hphase] using hm
  | firstSlot p i n => exact conserved_firstSlot hm hphase
  | drain op s i n =>
    by_cases hs : s < histogramNslots
    · by_cases hi : i < size
      · exact conserved_drainCell hm hphase hs hi
      · exact conserved_nextSlot hm hphase hs hi
    · have htick : m.tick = m.finish op n := by simp only [tick, hphase, dif_neg hs]
      rw [htick]
      cases ht : op.target with
      | cumulative => exact conserved_finish_merge hm hphase ht
      | temp =>
        obtain ⟨p, rfl⟩ : ∃ p, op = .getPctIntermediate p := by
          cases op <;> simp_all [HistOp.target]
        exact conserved_finish_intermediate hm hphase

theorem conserved_step (hm : Conserved m) (e : HistEvent size) : Conserved (histStep m e) := by
  cases e with
  | update s i => exact conserved_update hm s i
  | start op => exact conserved_start hm op
  | tick => exact conserved_tick hm

/-- **The account is kept along every interleaving.** -/
theorem conserved_run (events : List (HistEvent size)) : Conserved (histRun events) := by
  unfold histRun
  induction events using List.reverseRecOn with
  | nil => exact conserved_init
  | append_singleton events e ih =>
    rw [List.foldl_append]
    exact conserved_step ih e

/-- **Nothing is lost.**  When no report is under way, the total is the sum of the
buckets, and the slots, the buckets and what checkpoints took make up the updates. -/
theorem histRun_counts_every_update (events : List (HistEvent size))
    (hidle : (histRun events).phase = .idle) :
    let m := histRun events
    m.hist.cumulativeNevents.toNat = (∑ j, (m.hist.cumulativeArray j).toNat) % 2 ^ 64 ∧
    ∀ j,
      (∑ s, (m.hist.intermSlots s j).toNat + (m.hist.cumulativeArray j).toNat + m.resets j)
          % 2 ^ 64 = m.updates j % 2 ^ 64 ∧
      (m.updates j < 2 ^ 64 →
        ∑ s, (m.hist.intermSlots s j).toNat + (m.hist.cumulativeArray j).toNat + m.resets j
          = m.updates j) := by
  have hm := conserved_run events
  have hacc := hm.account
  have hcount := hm.counted
  simp only [HistMachine.account, inFlight, hidle, Nat.add_zero] at hacc
  simp only [Counted, hidle] at hcount
  refine ⟨?_, ?_⟩
  · exact (Nat.mod_eq_of_lt (UInt64.toNat_lt _)).symm.trans hcount
  · intro j
    exact ⟨(hacc j).mod_eq, fun hlt => (hacc j).eq_of_lt hlt⟩

section

set_option maxRecDepth 20000

/-- One update, one cumulative report over all 128 slots. -/
theorem histRun_counts_merged_update :
    let m : HistMachine 1 := histRun
      ([.update 3 0, .start (.getPctCumulative 95)] ++ List.replicate 257 .tick)
    m.phase = .idle ∧
      ∑ s, (m.hist.intermSlots s 0).toNat + (m.hist.cumulativeArray 0).toNat + m.resets 0 = 1 := by
  refine ⟨rfl, ?_⟩
  exact ((histRun_counts_every_update _ rfl).2 0).2 (by decide)

end

end HistMachine

end Sysbench
