/-
Which bucket a percentile is read off from.

`IsPctBucket counts p i` is what the number should be: `i` is a bucket, and the first one
at which the counts added up reach the rank of `p`, `p` per cent of the total rounded to
the nearest integer.  There is at most one, and it moves up with `p`.

The search has no branch for a rank that is never reached.  It does not need one as long
as the total it takes the rank of is the total of the array it searches
(`pctIndex_isPctBucket`), so most of this file is about the totals: the loops that drain
the slots count what they move, in a report that runs alone and, by the invariant of
`Proofs/Histogram.lean`, in one that is interrupted by increments anywhere.
-/
import Sysbench.Proofs.HistogramCalls

namespace Sysbench

open List

variable {size : ℕ} {counts : Fin size → ℕ} {p : ℚ} {array : Fin size → UInt64}

/-! ### The bucket of a percentile -/

/-- The counts of the buckets up to and including bucket `i`. -/
def prefixSum (counts : Fin size → ℕ) (i : ℕ) : ℕ := ∑ j with j.val ≤ i, counts j

/-- `i` is the first bucket at which the counts reach the rank of percentile `p`. -/
def IsPctBucket (counts : Fin size → ℕ) (p : ℚ) (i : ℕ) : Prop :=
  i < size ∧
    IsLeast {k : ℕ | ⌊((∑ j, counts j : ℕ) : ℚ) * p / 100 + 1 / 2⌋ ≤ (prefixSum counts k : ℤ)} i

theorem IsPctBucket.mono {p q : ℚ} {i k : ℕ}
    (hi : IsPctBucket counts p i) (hk : IsPctBucket counts q k) (hpq : p ≤ q) : i ≤ k := by
  apply hi.2.2
  have hreach : ⌊((∑ j, counts j : ℕ) : ℚ) * q / 100 + 1 / 2⌋ ≤ (prefixSum counts k : ℤ) := hk.2.1
  have hrank : ⌊((∑ j, counts j : ℕ) : ℚ) * p / 100 + 1 / 2⌋
      ≤ ⌊((∑ j, counts j : ℕ) : ℚ) * q / 100 + 1 / 2⌋ := by
    gcongr
  exact hrank.trans hreach

theorem IsPctBucket.unique {i k : ℕ}
    (hi : IsPctBucket counts p i) (hk : IsPctBucket counts p k) : i = k :=
  le_antisymm (hi.mono hk le_rfl) (hk.mono hi le_rfl)

namespace Histogram

/-! ### The search -/

/-- The search stops at the first place where the sum reaches `nmax`, if the whole list
does. -/
theorem pctScan_spec {nmax : ℕ} (l : List UInt64) :
    ∀ (ncur : UInt64) (i : ℕ), l ≠ [] →
      ncur.toNat + (l.map UInt64.toNat).sum < 2 ^ 64 →
      nmax ≤ ncur.toNat + (l.map UInt64.toNat).sum →
      ∃ k < l.length, pctScan nmax ncur i l = i + k ∧
        nmax ≤ ncur.toNat + ((l.map UInt64.toNat).take (k + 1)).sum ∧
        ∀ k' < k, ncur.toNat + ((l.map UInt64.toNat).take (k' + 1)).sum < nmax := by
  induction l with
  | nil => intro _ _ hne; exact absurd rfl hne
  | cons a rest ih =>
    intro ncur i _ hlt hle
    simp only [map_cons, sum_cons] at hlt hle
    have hadd : (ncur + a).toNat = ncur.toNat + a.toNat := by
      rw [UInt64.toNat_add]
      omega
    by_cases hstop : nmax ≤ (ncur + a).toNat
    · refine ⟨0, by simp, ?_, ?_, fun k' hk' => absurd hk' (Nat.not_lt_zero _)⟩
      · rw [pctScan, if_pos hstop, Nat.add_zero]
      · simpa [hadd] using hstop
    · have hrest : rest ≠ [] := by
        rintro rfl
        simp only [map_nil, sum_nil] at hle
        omega
      obtain ⟨k, hk, hscan, hreach, hbefore⟩ := ih (ncur + a) (i + 1) hrest
        (by omega) (by omega)
      refine ⟨k + 1, by simpa using hk, ?_, ?_, ?_⟩
      · rw [pctScan, if_neg hstop, hscan]
        omega
      · simp only [map_cons, take_succ_cons, sum_cons]
        omega
      · intro k' hk'
        simp only [map_cons, take_succ_cons, sum_cons]
        cases k' with
        | zero => simp only [take_zero, sum_nil]; omega
        | succ k' =>
          have hprev := hbefore k' (by omega)
          omega

theorem sum_take_eq_prefixSum (array : Fin size → UInt64) (k : ℕ) :
    ((((finRange size).map array).map UInt64.toNat).take (k + 1)).sum
      = prefixSum (fun j => (array j).toNat) k := by
  rw [map_map, ← ofFn_eq_map, sum_take_ofFn]
  simp only [Nat.lt_succ_iff]
  rfl

theorem sum_map_toNat (array : Fin size → UInt64) :
    (((finRange size).map array).map UInt64.toNat).sum = ∑ j, (array j).toNat := by
  rw [map_map, ← ofFn_eq_map, sum_ofFn]
  rfl

theorem pctRank_le {nevents : UInt64} (hp : p ≤ 100) :
    pctRank nevents p ≤ nevents.toNat := by
  unfold pctRank
  rw [Int.toNat_le, Int.floor_le_iff]
  have hn : (0 : ℚ) ≤ nevents.toNat := Nat.cast_nonneg _
  have hle : (nevents.toNat : ℚ) * p / 100 ≤ nevents.toNat := by
    rw [div_le_iff₀ (by norm_num)]
    exact mul_le_mul_of_nonneg_left hp hn
  push_cast
  linarith

/-- **The search is right** on an array whose total it is given. -/
theorem pctIndex_isPctBucket [NeZero size] {nevents : UInt64}
    (htotal : nevents.toNat = ∑ j, (array j).toNat) (hp : p ≤ 100) :
    IsPctBucket (fun j => (array j).toNat) p (pctIndex array nevents p) := by
  have hne : (finRange size).map array ≠ [] := by
    simp [NeZero.ne size]
  have hsum := sum_map_toNat array
  have hlt := nevents.toNat_lt
  have hrank : pctRank nevents p ≤ nevents.toNat := pctRank_le hp
  have h0 : (0 : UInt64).toNat = 0 := rfl
  have hle : pctRank nevents p
      ≤ (0 : UInt64).toNat + (((finRange size).map array).map UInt64.toNat).sum := by omega
  obtain ⟨k, hk, hscan, hreach, hbefore⟩ :=
    pctScan_spec ((finRange size).map array) 0 0 hne (by omega) hle
  simp only [sum_take_eq_prefixSum, h0, Nat.zero_add] at hreach hbefore hscan
  simp only [length_map, length_finRange] at hk
  have hset : ∀ i : ℕ, ⌊((∑ j, (array j).toNat : ℕ) : ℚ) * p / 100 + 1 / 2⌋
      ≤ (prefixSum (fun j => (array j).toNat) i : ℤ)
        ↔ pctRank nevents p ≤ prefixSum (fun j => (array j).toNat) i := by
    intro i
    rw [← htotal, pctRank, Int.toNat_le]
  unfold pctIndex
  rw [hscan]
  refine ⟨hk, (hset k).mpr hreach, ?_⟩
  intro k' hk'
  by_contra hlt'
  exact absurd ((hset k').mp hk') (Nat.not_le.mpr (hbefore k' (not_le.mp hlt')))

/-! ### The totals -/

/-- The first loop of `sb_histogram_get_pct_intermediate`, from bucket `i` on. -/
theorem firstLoop_account {i : ℕ} (hi : i ≤ size) (acc : Histogram size × UInt64)
    (hn : acc.2.toNat ≡ ∑ j, acc.1.passed i j [MOD 2 ^ 64]) :
    let acc' := ((finRange size).drop i).foldl firstCell acc
    (∀ j, acc'.1.inSlots j + (acc'.1.tempArray j).toNat = acc.1.inSlots j + acc.1.passed i j) ∧
      acc'.2.toNat ≡ ∑ j, (acc'.1.tempArray j).toNat [MOD 2 ^ 64] := by
  induction hk : size - i generalizing i acc with
  | zero =>
    have hend : i = size := by omega
    subst hend
    have hpassed : ∀ j : Fin i, acc.1.passed i j = (acc.1.tempArray j).toNat :=
      fun j => if_pos j.isLt
    simp only [hpassed] at hn ⊢
    rw [drop_eq_nil_of_le (by simp)]
    exact ⟨fun _ => rfl, hn⟩
  | succ k ih =>
    have hlt : i < size := by omega
    have hstep := ih hlt (firstCell acc ⟨i, hlt⟩)
      (firstCell_nevents acc.1 acc.2 ⟨i, hlt⟩ hn) (by omega)
    rw [HistMachine.drop_finRange hlt, foldl_cons]
    refine ⟨fun j => ?_, hstep.2⟩
    rw [hstep.1 j]
    exact firstCell_account acc.1 acc.2 ⟨i, hlt⟩ j

theorem firstLoop_intermSlots (s : Fin histogramNslots) (j : Fin size) (cells : List (Fin size)) :
    ∀ acc : Histogram size × UInt64, (cells.foldl firstCell acc).1.intermSlots s j
      = if s = 0 ∧ j ∈ cells then 0 else acc.1.intermSlots s j := by
  induction cells with
  | nil => intro acc; simp
  | cons i rest ih =>
    intro acc
    have hcell : (firstCell acc i).1.intermSlots s j
        = if s = 0 ∧ j = i then 0 else acc.1.intermSlots s j := by
      by_cases hs : s = 0 <;> by_cases hj : j = i <;> simp [firstCell, setSlot, hs, hj]
    rw [foldl_cons, ih, hcell]
    by_cases hs : s = 0 <;> by_cases hj : j ∈ rest <;> by_cases hi : j = i <;> simp [hs, hj, hi]

theorem drainSlots_nevents (target : Target) (slots : List (Fin histogramNslots))
    {acc : Histogram size × UInt64}
    (hn : acc.2.toNat ≡ ∑ j, (acc.1.arrayOf target j).toNat [MOD 2 ^ 64]) :
    (slots.foldl (drainSlot target) acc).2.toNat
      ≡ ∑ j, ((slots.foldl (drainSlot target) acc).1.arrayOf target j).toNat [MOD 2 ^ 64] :=
  drainSlots_induct
    (P := fun acc => acc.2.toNat ≡ ∑ j, (acc.1.arrayOf target j).toNat [MOD 2 ^ 64]) target
    (fun s acc i hacc => drainCell_nevents target s acc.1 acc.2 i hacc) slots hn

/-- A count that agrees with a sum modulo 2^64 is the sum, if that is small enough. -/
theorem total_of_modEq {n : UInt64}
    (hn : n.toNat ≡ ∑ j, (array j).toNat [MOD 2 ^ 64])
    (hcounts : ∀ j, (array j).toNat = counts j) (hexact : ∑ j, counts j < 2 ^ 64) :
    n.toNat = ∑ j, (array j).toNat := by
  simp only [hcounts] at hn ⊢
  exact Nat.ModEq.eq_of_lt_of_lt hn n.toNat_lt hexact

/-- The loops of `sb_histogram_get_pct_intermediate`. -/
def drainTemp (h : Histogram size) : Histogram size × UInt64 :=
  ((List.finRange histogramNslots).drop 1).foldl (drainSlot .temp)
    ((List.finRange size).foldl firstCell (h, 0))

theorem drainTemp_inSlots (h : Histogram size) (j : Fin size) : (drainTemp h).1.inSlots j = 0 := by
  unfold inSlots drainTemp
  refine Finset.sum_eq_zero fun s _ => ?_
  rw [drainSlots_intermSlots, firstLoop_intermSlots]
  by_cases hs : s = 0
  · simp [hs, mem_finRange]
  · have hmem : s ∈ (finRange histogramNslots).drop 1 := by
      have hall := mem_finRange s
      exact (mem_cons.mp hall).resolve_left hs
    rw [if_pos hmem]
    rfl

theorem drainTemp_counts {h : Histogram size} (hexact : ∑ j, h.inSlots j < 2 ^ 64) :
    (∀ j, ((drainTemp h).1.tempArray j).toNat = h.inSlots j) ∧
      (drainTemp h).2.toNat = ∑ j, ((drainTemp h).1.tempArray j).toNat := by
  have hpassed : ∀ j, h.passed 0 j = 0 := HistMachine.passed_zero h
  have hfirst := firstLoop_account (Nat.zero_le size) (h, 0) (by simp [hpassed]; rfl)
  simp only [drop_zero, hpassed, Nat.add_zero] at hfirst
  have hcounts : ∀ j, ((drainTemp h).1.tempArray j).toNat = h.inSlots j := by
    intro j
    have hacc := (drainSlots_account .temp ((finRange histogramNslots).drop 1)
      ((finRange size).foldl firstCell (h, 0)).1
      ((finRange size).foldl firstCell (h, 0)).2 j).mod_eq
    have hempty := drainTemp_inSlots h j
    have hle : h.inSlots j ≤ ∑ j, h.inSlots j :=
      Finset.single_le_sum (f := h.inSlots) (fun _ _ => Nat.zero_le _) (Finset.mem_univ j)
    simp only [arrayOf, hfirst.1 j] at hacc
    change ((drainTemp h).1.inSlots j + ((drainTemp h).1.tempArray j).toNat) % 2 ^ 64 = _ at hacc
    rw [hempty, Nat.zero_add, Nat.mod_eq_of_lt (UInt64.toNat_lt _),
      Nat.mod_eq_of_lt (by omega)] at hacc
    exact hacc
  exact ⟨hcounts, total_of_modEq
    (drainSlots_nevents .temp ((finRange histogramNslots).drop 1) hfirst.2) hcounts hexact⟩

theorem merge_counts {h : Histogram size}
    (htotal : h.cumulativeNevents.toNat = ∑ j, (h.cumulativeArray j).toNat)
    (hexact : ∑ j, (h.inSlots j + (h.cumulativeArray j).toNat) < 2 ^ 64) :
    (∀ j, (h.mergeIntermediateIntoCumulative.cumulativeArray j).toNat
      = h.inSlots j + (h.cumulativeArray j).toNat) ∧
    h.mergeIntermediateIntoCumulative.cumulativeNevents.toNat
      = ∑ j, (h.mergeIntermediateIntoCumulative.cumulativeArray j).toNat := by
  have hcounts : ∀ j, (h.mergeIntermediateIntoCumulative.cumulativeArray j).toNat
      = h.inSlots j + (h.cumulativeArray j).toNat := by
    intro j
    have hle : h.inSlots j + (h.cumulativeArray j).toNat
        ≤ ∑ j, (h.inSlots j + (h.cumulativeArray j).toNat) :=
      Finset.single_le_sum (f := fun j => h.inSlots j + (h.cumulativeArray j).toNat)
        (fun _ _ => Nat.zero_le _) (Finset.mem_univ j)
    rw [merge_cumulativeArray, count, Nat.mod_eq_of_lt (by omega)]
  have hstart : (h, h.cumulativeNevents).2.toNat
      ≡ ∑ j, ((h, h.cumulativeNevents).1.arrayOf .cumulative j).toNat [MOD 2 ^ 64] := by
    simp only [arrayOf, htotal]
    rfl
  exact ⟨hcounts, total_of_modEq
    (drainSlots_nevents .cumulative (finRange histogramNslots) hstart) hcounts hexact⟩

end Histogram

open Histogram

/-- **Percentiles.**  On a histogram whose stored total is that of its buckets, both lookups
stay inside the array and find the first bucket that reaches the rank: among the counts of
the slots for `sb_histogram_get_pct_intermediate`, among all counts for the functions that
merge first.  Both move up with the percentile, and they agree if there is nothing but the
slots. -/
theorem percentiles_are_first_buckets [NeZero size] {h : Histogram size} (hfree : h.lock = false)
    (htotal : h.cumulativeNevents.toNat = ∑ j, (h.cumulativeArray j).toNat)
    (hexact : ∑ j, (h.inSlots j + (h.cumulativeArray j).toNat) < 2 ^ 64) :
    ∃ intermediate cumulative : ℚ → ℕ,
      (∀ p ∈ Set.Icc (0 : ℚ) 100,
        (∃ h', h.sbHistogramGetPctIntermediate p = some (intermediate p, h')) ∧
        IsPctBucket h.inSlots p (intermediate p) ∧
        (∃ h', h.sbHistogramGetPctCumulative p = some (cumulative p, h')) ∧
        (∃ h', h.sbHistogramGetPctCheckpoint p = some (cumulative p, h')) ∧
        IsPctBucket (fun j => h.inSlots j + (h.cumulativeArray j).toNat) p (cumulative p)) ∧
      MonotoneOn intermediate (Set.Icc 0 100) ∧
      MonotoneOn cumulative (Set.Icc 0 100) ∧
      ((∀ j, h.cumulativeArray j = 0) → Set.EqOn intermediate cumulative (Set.Icc 0 100)) := by
  have hw : h.wrlock = some { h with lock := true } := by
    rw [wrlock, hfree]
    rfl
  let locked : Histogram size := { h with lock := true }
  have hslots : ∑ j, h.inSlots j < 2 ^ 64 := by
    refine lt_of_le_of_lt (Finset.sum_le_sum fun j _ => ?_) hexact
    exact Nat.le_add_right _ _
  obtain ⟨htemp, hntemp⟩ := drainTemp_counts (h := locked) hslots
  obtain ⟨hmerged, hnmerged⟩ := merge_counts (h := locked) htotal hexact
  have hint : ∀ p ∈ Set.Icc (0 : ℚ) 100,
      IsPctBucket h.inSlots p (pctIndex (drainTemp locked).1.tempArray (drainTemp locked).2 p) := by
    intro p hp
    have hbucket := pctIndex_isPctBucket hntemp hp.2
    simp only [htemp] at hbucket
    exact hbucket
  have hcum : ∀ p ∈ Set.Icc (0 : ℚ) 100,
      IsPctBucket (fun j => h.inSlots j + (h.cumulativeArray j).toNat) p
        (locked.mergeIntermediateIntoCumulative.getPctCumulative p) := by
    intro p hp
    have hbucket := pctIndex_isPctBucket hnmerged hp.2
    simp only [hmerged] at hbucket
    exact hbucket
  refine ⟨fun p => pctIndex (drainTemp locked).1.tempArray (drainTemp locked).2 p,
    fun p => locked.mergeIntermediateIntoCumulative.getPctCumulative p, ?_, ?_, ?_, ?_⟩
  · intro p hp
    refine ⟨⟨(drainTemp locked).1.finishIntermediate (drainTemp locked).2, ?_⟩, hint p hp,
      ⟨locked.mergeIntermediateIntoCumulative.unlock, ?_⟩,
      ⟨locked.mergeIntermediateIntoCumulative.resetCumulative.unlock, ?_⟩, hcum p hp⟩
    · rw [sbHistogramGetPctIntermediate, hw]
      rfl
    · rw [sbHistogramGetPctCumulative, hw]
      rfl
    · rw [sbHistogramGetPctCheckpoint, hw]
      rfl
  · intro p hp q hq hpq
    exact (hint p hp).mono (hint q hq) hpq
  · intro p hp q hq hpq
    exact (hcum p hp).mono (hcum q hq) hpq
  · intro hzero p hp
    have hcounts : (fun j => h.inSlots j + (h.cumulativeArray j).toNat) = h.inSlots := by
      funext j
      rw [hzero j, UInt64.toNat_zero, Nat.add_zero]
    have hsame := hcum p hp
    rw [hcounts] at hsame
    exact (hint p hp).unique hsame

/-- One event in the second of two buckets. -/
theorem median_of_one_event :
    let h := (Histogram.init 2).increment 3 1
    ∃ i h', h.sbHistogramGetPctCumulative 50 = some (i, h') ∧
      IsPctBucket (fun j => h.inSlots j + (h.cumulativeArray j).toNat) 50 i := by
  intro h
  obtain ⟨_, cumulative, hall, -⟩ :=
    percentiles_are_first_buckets (h := h) rfl (by decide) (by decide +kernel)
  obtain ⟨-, -, ⟨h', hcall⟩, -, hbucket⟩ := hall 50 ⟨by norm_num, by norm_num⟩
  exact ⟨cumulative 50, h', hcall, hbucket⟩

/-- A report that is interrupted by increments searches an array whose total it has as well:
the invariant of the run says so in every state in which its loops have ended. -/
theorem interrupted_report_isPctBucket [NeZero size] (events : List (HistEvent size)) {op : HistOp}
    {s i : ℕ} {n : UInt64} (hphase : (histRun events).phase = .drain op s i n)
    (hexact : ∑ j, ((histRun events).hist.arrayOf op.target j).toNat < 2 ^ 64) {p : ℚ}
    (hp : p ≤ 100) :
    IsPctBucket (fun j => ((histRun events).hist.arrayOf op.target j).toNat) p
      (pctIndex ((histRun events).hist.arrayOf op.target) n p) := by
  have hcount := (HistMachine.conserved_run events).counted
  have hmod : n.toNat ≡ ∑ j, ((histRun events).hist.arrayOf op.target j).toNat [MOD 2 ^ 64] := by
    cases op with
    | getPctIntermediate p =>
      simp only [HistMachine.Counted, hphase] at hcount
      exact hcount.2
    | getPctCumulative p | getPctCheckpoint p | print =>
      simp only [HistMachine.Counted, hphase] at hcount
      exact hcount
  exact pctIndex_isPctBucket (total_of_modEq hmod (fun _ => rfl) hexact) hp

/-- One event before the report and one in the middle of it -/
theorem report_between_two_events :
    let events : List (HistEvent 1) :=
      [.update 0 0, .start (.getPctCumulative 50), .tick, .update 0 0]
    (histRun events).phase = .drain (.getPctCumulative 50) 0 1 1 ∧
      IsPctBucket (fun j => ((histRun events).hist.arrayOf .cumulative j).toNat) 50
        (pctIndex ((histRun events).hist.arrayOf .cumulative) 1 50) := by
  intro events
  have hphase : (histRun events).phase = .drain (.getPctCumulative 50) 0 1 1 := rfl
  exact ⟨hphase, interrupted_report_isPctBucket events hphase (by decide) (by norm_num)⟩

end Sysbench
