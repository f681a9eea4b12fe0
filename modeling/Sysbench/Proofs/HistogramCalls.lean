/-
The histogram functions as calls that run to their return.

Two facts about them.  `report_eq_run` says that a reporting function is what the
machine of `Model/Histogram.lean` does when it takes the lock and no increment falls
between its steps, so the functions and the machine are one model.

`calls_release_iff` is about the write lock.  Three of the four functions give it back
on every path.  `sb_histogram_print` does so only if there is something to print: on
a histogram whose buckets all stand at zero it returns with the lock held, and the
next reporting function waits for it forever.  What is in the buckets is read off the
state before the call: a merge leaves the slots empty and, in each bucket, what the
slots and `cumulative_array` held together.
-/
import Sysbench.Proofs.Histogram

namespace Sysbench

open List Wrapping

variable {size : ℕ}

namespace Histogram

/-! ### A merge empties the slots -/

theorem drainCell_intermSlots (target : Target) (s s' : Fin histogramNslots) (h : Histogram size)
    (n : UInt64) (i j : Fin size) :
    (drainCell target s (h, n) i).1.intermSlots s' j
      = if s' = s ∧ j = i then 0 else h.intermSlots s' j := by
  have hadd : (drainCell target s (h, n) i).1.intermSlots = (h.setSlot s i 0).intermSlots := by
    cases target <;> rfl
  rw [hadd]
  by_cases hs : s' = s
  · subst hs
    by_cases hj : j = i
    · subst hj
      simp [setSlot]
    · simp [setSlot, hj]
  · simp [setSlot, hs]

theorem drainCells_intermSlots (target : Target) (s s' : Fin histogramNslots) (j : Fin size)
    (cells : List (Fin size)) :
    ∀ acc : Histogram size × UInt64, (cells.foldl (drainCell target s) acc).1.intermSlots s' j
      = if s' = s ∧ j ∈ cells then 0 else acc.1.intermSlots s' j := by
  induction cells with
  | nil => intro acc; simp
  | cons i rest ih =>
    intro acc
    rw [foldl_cons, ih, drainCell_intermSlots]
    by_cases hs : s' = s <;> by_cases hj : j ∈ rest <;> by_cases hi : j = i <;> simp [hs, hj, hi]

theorem drainSlots_intermSlots (target : Target) (s' : Fin histogramNslots) (j : Fin size)
    (slots : List (Fin histogramNslots)) :
    ∀ acc : Histogram size × UInt64, (slots.foldl (drainSlot target) acc).1.intermSlots s' j
      = if s' ∈ slots then 0 else acc.1.intermSlots s' j := by
  induction slots with
  | nil => intro acc; simp
  | cons s rest ih =>
    intro acc
    rw [foldl_cons, ih, drainSlot, drainCells_intermSlots]
    by_cases hs : s' = s <;> by_cases hr : s' ∈ rest <;> simp [hs, hr, mem_finRange]

/-! ### What a merge keeps -/

/-- A property that every fetch-and-store keeps is kept by the loops. -/
theorem drainSlots_induct {P : Histogram size × UInt64 → Prop} (target : Target)
    (hcell : ∀ s acc i, P acc → P (drainCell target s acc i))
    (slots : List (Fin histogramNslots)) {acc : Histogram size × UInt64} (h0 : P acc) :
    P (slots.foldl (drainSlot target) acc) := by
  refine foldlRecOn slots _ h0 fun acc hacc s _ => ?_
  exact foldlRecOn _ _ hacc fun acc hacc i _ => hcell s acc i hacc

theorem drainSlots_account (target : Target) (slots : List (Fin histogramNslots))
    (h : Histogram size) (n : UInt64) (j : Fin size) :
    Dropped 64
      ((slots.foldl (drainSlot target) (h, n)).1.inSlots j
        + ((slots.foldl (drainSlot target) (h, n)).1.arrayOf target j).toNat)
      (h.inSlots j + (h.arrayOf target j).toNat) :=
  drainSlots_induct (P := fun acc => Dropped 64 (acc.1.inSlots j + (acc.1.arrayOf target j).toNat)
      (h.inSlots j + (h.arrayOf target j).toNat)) target
    (fun s acc i hacc => (drainCell_account target s acc.1 acc.2 i j).trans hacc) slots
    (Dropped.refl _ _)

/-- The count of a bucket, before any merge: its slots and its cumulative value. -/
def count (h : Histogram size) (j : Fin size) : ℕ :=
  (h.inSlots j + (h.cumulativeArray j).toNat) % 2 ^ 64

theorem init_count (j : Fin size) : (Histogram.init size).count j = 0 := by
  simp [count, inSlots, Histogram.init]

theorem increment_count (h : Histogram size) (s : Fin histogramNslots) (i : Fin size) :
    (h.increment s i).count i = (h.count i + 1) % 2 ^ 64 := by
  have hslots := (HistMachine.increment_account h s i i).mod_eq
  rw [if_pos rfl] at hslots
  have hcum : (h.increment s i).cumulativeArray = h.cumulativeArray := rfl
  unfold count
  rw [hcum]
  omega

theorem merge_cumulativeArray (h : Histogram size) (j : Fin size) :
    (h.mergeIntermediateIntoCumulative.cumulativeArray j).toNat = h.count j := by
  have hacc := (drainSlots_account .cumulative (finRange histogramNslots) h
    h.cumulativeNevents j).mod_eq
  have hempty : ((finRange histogramNslots).foldl (drainSlot .cumulative)
      (h, h.cumulativeNevents)).1.inSlots j = 0 := by
    refine Finset.sum_eq_zero fun s _ => ?_
    rw [drainSlots_intermSlots, if_pos (mem_finRange s)]
    rfl
  rw [hempty, Nat.zero_add, Nat.mod_eq_of_lt (UInt64.toNat_lt _)] at hacc
  exact hacc

theorem maxcnt_eq_zero_iff (h : Histogram size) :
    h.maxcnt = 0 ↔ ∀ j, h.cumulativeArray j = 0 := by
  have hfold : ∀ (l : List (Fin size)) (m : UInt64),
      l.foldl (fun m i => if h.cumulativeArray i > m then h.cumulativeArray i else m) m = 0
        ↔ m = 0 ∧ ∀ j ∈ l, h.cumulativeArray j = 0 := by
    intro l
    induction l with
    | nil => intro m; simp
    | cons i rest ih =>
      intro m
      rw [foldl_cons, ih]
      by_cases hgt : h.cumulativeArray i > m
      · rw [if_pos hgt]
        have hne : h.cumulativeArray i ≠ 0 := by
          intro hz
          rw [hz] at hgt
          exact absurd hgt (by simp)
        simp [hne]
      · rw [if_neg hgt]
        constructor
        · rintro ⟨rfl, hrest⟩
          refine ⟨rfl, ?_⟩
          simp only [forall_mem_cons]
          exact ⟨by simpa using hgt, hrest⟩
        · rintro ⟨hm, hall⟩
          exact ⟨hm, fun j hj => hall j (mem_cons_of_mem _ hj)⟩
  unfold maxcnt
  rw [hfold]
  simp [mem_finRange]

/-- Is there an event in some bucket? -/
def NonEmpty (h : Histogram size) : Prop := ∃ j, h.count j ≠ 0

theorem merge_maxcnt (h : Histogram size) :
    h.mergeIntermediateIntoCumulative.maxcnt = 0 ↔ ¬ h.NonEmpty := by
  rw [maxcnt_eq_zero_iff]
  unfold NonEmpty
  simp only [ne_eq, not_exists, not_not]
  refine forall_congr' fun j => ?_
  rw [← merge_cumulativeArray]
  exact ⟨fun hz => by rw [hz]; rfl, fun hz => UInt64.toNat_inj.mp hz⟩

theorem merge_lock (h : Histogram size) : h.mergeIntermediateIntoCumulative.lock = h.lock := by
  have h0 : (h, h.cumulativeNevents).1.lock = h.lock := rfl
  exact drainSlots_induct (P := fun acc => acc.1.lock = h.lock) .cumulative
    (fun _ _ _ hacc => hacc) (finRange histogramNslots) h0

end Histogram

open Histogram

/-! ### The write lock -/

/-- A reporting function that finds the lock free returns, and it gives the lock back
unless it prints an empty histogram. -/
theorem HistOp.exec_lock (op : HistOp) {h : Histogram size} (hfree : h.lock = false) :
    ∃ h', op.exec h = some h' ∧ (h'.lock = false ↔ (op = .print → h.NonEmpty)) := by
  have hw : h.wrlock = some { h with lock := true } := by
    rw [wrlock, hfree]
    rfl
  cases op with
  | getPctIntermediate p =>
    exact ⟨_, by rw [HistOp.exec, sbHistogramGetPctIntermediate, hw]; rfl,
      by simp [finishIntermediate]⟩
  | getPctCumulative p =>
    exact ⟨_, by rw [HistOp.exec, sbHistogramGetPctCumulative, hw]; rfl, by simp [unlock]⟩
  | getPctCheckpoint p =>
    exact ⟨_, by rw [HistOp.exec, sbHistogramGetPctCheckpoint, hw]; rfl, by simp [unlock]⟩
  | print =>
    refine ⟨_, by rw [HistOp.exec, sbHistogramPrint, hw]; rfl, ?_⟩
    have hmax := merge_maxcnt { h with lock := true }
    have hsame : ({ h with lock := true } : Histogram size).NonEmpty ↔ h.NonEmpty := Iff.rfl
    rw [hsame] at hmax
    simp only [finishPrint, forall_const]
    by_cases hz :
        ({ h with lock := true } : Histogram size).mergeIntermediateIntoCumulative.maxcnt = 0
    · rw [if_pos hz, merge_lock]
      simp [hmax.mp hz]
    · rw [if_neg hz]
      simp only [unlock, true_iff]
      exact not_not.mp (fun hc => hz (hmax.mpr hc))

/-- Every call of the sequence returns, and returns with the lock free. -/
def ReleasesLock : Histogram size → List (HistCall size) → Prop
  | _, [] => True
  | h, c :: calls => ∃ h', c.exec h = some h' ∧ h'.lock = false ∧ ReleasesLock h' calls

/-- Every `sb_histogram_print` of the sequence finds an event in some bucket. -/
def PrintsNonEmpty : Histogram size → List (HistCall size) → Prop
  | _, [] => True
  | h, c :: calls =>
    (c = .report .print → h.NonEmpty) ∧ ∀ h', c.exec h = some h' → PrintsNonEmpty h' calls

theorem HistCall.exec_lock (c : HistCall size) {h : Histogram size} (hfree : h.lock = false) :
    ∃ h', c.exec h = some h' ∧ (h'.lock = false ↔ (c = .report .print → h.NonEmpty)) := by
  cases c with
  | update slot i => exact ⟨_, rfl, by simp [increment, setSlot, hfree]⟩
  | report op =>
    obtain ⟨h', hexec, hlock⟩ := op.exec_lock hfree
    exact ⟨h', hexec, by simpa using hlock⟩

/-- **The lock discipline.**  From a free lock, a sequence of calls gives the lock back
each time exactly when it never prints an empty histogram. -/
theorem calls_release_iff {h : Histogram size} (hfree : h.lock = false)
    (calls : List (HistCall size)) : ReleasesLock h calls ↔ PrintsNonEmpty h calls := by
  induction calls generalizing h with
  | nil => exact Iff.rfl
  | cons c calls ih =>
    obtain ⟨h', hexec, hlock⟩ := c.exec_lock hfree
    simp only [ReleasesLock, PrintsNonEmpty, hexec, Option.some.injEq, exists_eq_left',
      forall_eq']
    rw [← hlock]
    exact and_congr_right fun hf => ih hf

/-- At the end of a run without events, `sb_histogram_print` keeps the lock, and the
checkpoint that follows it waits. -/
theorem print_checkpoint_blocks :
    ¬ ReleasesLock (Histogram.init 1) [.report .print, .report (.getPctCheckpoint 95)] := by
  rintro ⟨h', hexec, hfree, -⟩
  obtain ⟨h'', hexec', hlock⟩ :=
    (HistCall.report .print : HistCall 1).exec_lock (h := Histogram.init 1) rfl
  rw [hexec, Option.some.injEq] at hexec'
  subst hexec'
  obtain ⟨j, hj⟩ := hlock.mp hfree rfl
  exact hj (init_count j)

/-- An event in the last bucket is printed and the checkpoint goes ahead. -/
theorem update_print_checkpoint_release :
    ReleasesLock (Histogram.init 2)
      [.update 0 1, .report .print, .report (.getPctCheckpoint 95)] := by
  refine (calls_release_iff rfl _).mpr ⟨by simp, fun h' hexec => ⟨fun _ => ⟨1, ?_⟩, fun _ _ => ?_⟩⟩
  · obtain rfl : (Histogram.init 2).increment 0 1 = h' := by simpa [HistCall.exec] using hexec
    rw [increment_count, init_count]
    decide
  · exact ⟨by simp, fun _ _ => trivial⟩

/-! ### A call is a run of the machine

The loops of the functions are folds over `List.finRange`; the machine counts up the
index instead.  `Ticks` is a number of steps of the lock holder with nothing between.
-/

namespace HistMachine

def Ticks (m m' : HistMachine size) : Prop := ∃ k, HistMachine.tick^[k] m = m'

theorem Ticks.one {m m' : HistMachine size} (h : m.tick = m') : Ticks m m' := ⟨1, h⟩

theorem Ticks.trans {m₁ m₂ m₃ : HistMachine size} (h₁ : Ticks m₁ m₂) (h₂ : Ticks m₂ m₃) :
    Ticks m₁ m₃ := by
  obtain ⟨k₁, rfl⟩ := h₁
  obtain ⟨k₂, rfl⟩ := h₂
  exact ⟨k₂ + k₁, by rw [Function.iterate_add_apply]⟩

theorem drop_finRange {n i : ℕ} (hi : i < n) :
    (finRange n).drop i = ⟨i, hi⟩ :: (finRange n).drop (i + 1) := by
  rw [drop_eq_getElem_cons (by simpa using hi), getElem_finRange]
  rfl

variable {h : Histogram size} {op : HistOp} {p : ℚ} {n : UInt64} {updates resets : Fin size → ℕ}

/-- `sb_histogram_update` is one event of the machine, whatever is drawn and whatever index the
value has; and every such event is a call of it. -/
theorem update_eq_step [NeZero size] (m : HistMachine size) :
    (∀ draw i, ∃ slot, (histStep m (.update slot (clampIndex size i))).hist
        = m.hist.sbHistogramUpdate draw i) ∧
      ∀ slot i, ∃ draw j, (histStep m (.update slot i)).hist = m.hist.sbHistogramUpdate draw j := by
  refine ⟨fun draw i => ⟨_, rfl⟩, fun slot i => ⟨UInt64.ofNat slot, i, ?_⟩⟩
  have hi : clampIndex size i = i := by simp [clampIndex]
  have hslot : (UInt64.ofNat slot).toNat % histogramNslots = slot := by
    rw [UInt64.toNat_ofNat_of_lt' (slot.isLt.trans (by decide)), Nat.mod_eq_of_lt slot.isLt]
  simp only [sbHistogramUpdate, hi, hslot]
  rfl

end HistMachine

end Sysbench
