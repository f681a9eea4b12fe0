/-
The segments of the random points and ranges.

A segment is drawn from with both its ends, and its upper end is the lower end of the next one.
So neighbours share a value, and the first segment starts at 0, which is no row of the table:
`segments_overlap` says that no table size and no number of threads avoids this.
-/
import Sysbench.Model.RandomSegments
import Sysbench.Proofs.RandRange

namespace Sysbench.RandomSegments

open List Sysbench.Rand

variable {K : Type} [Field K] [LinearOrder K]

/-! ### Rounding -/

/-- What is known of the rounding of `double`s: it keeps the order, a rounded number is not
changed again, and a number of up to 53 binary digits is not changed at all. -/
structure Rounds (round : K → K) : Prop where
  mono : Monotone round
  idem : ∀ x, round (round x) = round x
  exact : ∀ n k : ℕ, n ≤ 2 ^ 53 → k ≤ 1000 → round (n / 2 ^ k) = n / 2 ^ k

theorem rounds_id : Rounds (id : K → K) :=
  ⟨monotone_id, fun _ => rfl, fun _ _ _ _ => rfl⟩

variable {round : K → K}

theorem Rounds.natCast (h : Rounds round) {n : ℕ} (hn : n ≤ 2 ^ 53) : round n = n := by
  have hexact := h.exact n 0 hn (by decide)
  simpa using hexact

theorem Rounds.zero (h : Rounds round) : round 0 = 0 := by
  exact_mod_cast h.natCast (Nat.zero_le _)

variable {x : K}

theorem Rounds.nonneg (h : Rounds round) (hx : 0 ≤ x) : 0 ≤ round x := by
  rw [← h.zero]
  exact h.mono hx

/-! ### The bounds -/

theorem rmin_first (h : Rounds round) (opt : Opt) : rmin round (threadInit round opt 0) = 0 := by
  simp [rmin, threadInit, h.zero]

theorem rmax_first (h : Rounds round) (opt : Opt) :
    rmax round (threadInit round opt 0) = (threadInit round opt 0).rlen := by
  unfold rmax
  rw [rmin_first h opt, zero_add]
  exact h.idem _

variable {opt : Opt}

theorem rmin_second (h : Rounds round) (hthreads : 2 ≤ opt.threads) :
    rmin round (threadInit round opt 1) = (threadInit round opt 0).rlen := by
  have hmod : 1 % opt.threads = 1 := Nat.mod_eq_of_lt hthreads
  simp only [rmin, threadInit, hmod, Nat.cast_one, mul_one]
  exact h.idem _

section Bounds

variable [IsStrictOrderedRing K]

theorem rlen_nonneg (h : Rounds round) (opt : Opt) (tid : ℕ) :
    0 ≤ (threadInit round opt tid).rlen :=
  h.nonneg (by positivity)

theorem rmin_nonneg (h : Rounds round) (opt : Opt) (tid : ℕ) :
    0 ≤ rmin round (threadInit round opt tid) :=
  h.nonneg (mul_nonneg (rlen_nonneg h opt tid) (Nat.cast_nonneg _))

theorem rmin_le_rmax (h : Rounds round) (opt : Opt) (tid : ℕ) :
    rmin round (threadInit round opt tid) ≤ rmax round (threadInit round opt tid) := by
  calc rmin round (threadInit round opt tid)
      = round (rmin round (threadInit round opt tid)) := (h.idem _).symm
    _ ≤ rmax round (threadInit round opt tid) :=
        h.mono (le_add_of_nonneg_right (rlen_nonneg h opt tid))

theorem rlen_le_rmax (h : Rounds round) (opt : Opt) (tid : ℕ) :
    (threadInit round opt tid).rlen ≤ rmax round (threadInit round opt tid) := by
  calc (threadInit round opt tid).rlen
      = round (threadInit round opt tid).rlen := (h.idem _).symm
    _ ≤ rmax round (threadInit round opt tid) :=
        h.mono (le_add_of_nonneg_left (rmin_nonneg h opt tid))

variable {opt : Opt}

/-- Two threads at least: the segments are shorter than half the 32-bit numbers. -/
theorem rlen_le_half (h : Rounds round) (hthreads : 2 ≤ opt.threads)
    (hsize : opt.tableSize < 2 ^ 32) :
    (threadInit round opt 0).rlen ≤ (2 ^ 32 - 1 : ℕ) / 2 ^ 1 := by
  rw [← h.exact (2 ^ 32 - 1) 1 (by decide) (by decide)]
  apply h.mono
  have hn : (2 : K) ^ 1 ≤ (opt.threads : K) := by
    exact_mod_cast hthreads
  apply div_le_div₀ (Nat.cast_nonneg _) _ (by positivity) hn
  exact_mod_cast Nat.le_sub_one_of_lt hsize

theorem rmax_second_lt (h : Rounds round) (hthreads : 2 ≤ opt.threads)
    (hsize : opt.tableSize < 2 ^ 32) : rmax round (threadInit round opt 1) < 2 ^ 32 := by
  have hhalf := rlen_le_half h hthreads hsize
  rw [pow_one] at hhalf
  have hsum : rmin round (threadInit round opt 1) + (threadInit round opt 1).rlen
      ≤ ((2 ^ 32 - 1 : ℕ) : K) := by
    rw [rmin_second h hthreads]
    show (threadInit round opt 0).rlen + (threadInit round opt 0).rlen ≤ _
    rw [← mul_two]
    exact (le_div_iff₀ two_pos).mp hhalf
  calc rmax round (threadInit round opt 1) ≤ round ((2 ^ 32 - 1 : ℕ) : K) := h.mono hsum
    _ = ((2 ^ 32 - 1 : ℕ) : K) := h.natCast (by decide)
    _ < 2 ^ 32 := by norm_num

theorem rlen_lt (h : Rounds round) (hthreads : 1 ≤ opt.threads) (hsize : opt.tableSize < 2 ^ 32) :
    (threadInit round opt 0).rlen < 2 ^ 32 := by
  have hn : (1 : K) ≤ (opt.threads : K) := by exact_mod_cast hthreads
  calc (threadInit round opt 0).rlen ≤ round (opt.tableSize : K) :=
        h.mono (div_le_self (Nat.cast_nonneg _) hn)
    _ = opt.tableSize := h.natCast (by omega)
    _ < 2 ^ 32 := by exact_mod_cast hsize

end Bounds

variable [FloorSemiring K]

/-! ### What a thread can draw -/

/-- Thread `tid` can draw `v`: it lies between the two arguments of `sysbench.rand.default`, as
they are after the conversion. -/
def CanDraw (round : K → K) (opt : Opt) (tid : ℕ) (v : UInt32) : Prop :=
  ∃ a b, toUInt32 (rmin round (threadInit round opt tid)) = some a ∧
    toUInt32 (rmax round (threadInit round opt tid)) = some b ∧ a ≤ v ∧ v ≤ b

/-- The segments partition the numbers from 1 to the table size. -/
structure Partition (round : K → K) (opt : Opt) : Prop where
  disjoint : ∀ i < opt.threads, ∀ j < opt.threads, i ≠ j → ∀ v,
    ¬(CanDraw round opt i v ∧ CanDraw round opt j v)
  in_table : ∀ i < opt.threads, ∀ v, CanDraw round opt i v →
    1 ≤ v.toNat ∧ v.toNat ≤ opt.tableSize
  covers : ∀ n, 1 ≤ n → n ≤ opt.tableSize →
    ∃ i < opt.threads, ∃ v, CanDraw round opt i v ∧ v.toNat = n

/-! ### The events -/

/-- A generator keeps to its range. -/
def InRange (rand : UInt32 → UInt32 → Option UInt32) : Prop :=
  ∀ a b v, rand a b = some v → a ≤ v ∧ v ≤ b

variable {tid : ℕ} {v : UInt32}

theorem canDraw_of_randDefault {rand : UInt32 → UInt32 → Option UInt32} (hrand : InRange rand)
    (hv : randDefault round (threadInit round opt tid) rand = some v) :
    CanDraw round opt tid v := by
  unfold randDefault at hv
  simp only [Option.bind_eq_bind, Option.bind_eq_some_iff] at hv
  obtain ⟨a, ha, b, hb, hab⟩ := hv
  exact ⟨a, b, ha, hb, hrand a b v hab⟩

theorem exists_of_mem_mapM {α β : Type} {f : α → Option β} {l : List α} {r : List β}
    (h : l.mapM f = some r) : ∀ y ∈ r, ∃ x ∈ l, f x = some y := by
  induction l generalizing r with
  | nil =>
    simp only [mapM_nil, Option.pure_def, Option.some.injEq] at h
    simp [← h]
  | cons x l ih =>
    simp only [mapM_cons, Option.bind_eq_bind, Option.bind_eq_some_iff, Option.pure_def,
      Option.some.injEq] at h
    obtain ⟨y, hy, ys, hys, rfl⟩ := h
    intro z hz
    rcases mem_cons.mp hz with rfl | hz
    · exact ⟨x, mem_cons_self, hy⟩
    · obtain ⟨w, hw, hfw⟩ := ih hys z hz
      exact ⟨w, mem_cons_of_mem x hw, hfw⟩

variable {rand : ℕ → UInt32 → UInt32 → Option UInt32}

theorem canDraw_of_drawValues {count : ℕ} (hrand : ∀ i, InRange (rand i)) {vals : List UInt32}
    (hvals : drawValues round (threadInit round opt tid) rand count = some vals) :
    ∀ v ∈ vals, CanDraw round opt tid v := by
  intro v hv
  obtain ⟨i, -, hi⟩ := exists_of_mem_mapM hvals v hv
  exact canDraw_of_randDefault (hrand i) hi

/-- Whatever generator is chosen, a point is a value that the thread can draw. -/
theorem canDraw_of_pointsEvent (hrand : ∀ i, InRange (rand i)) {params : List ℤ}
    (hparams : pointsEvent round opt (threadInit round opt tid) rand = some params) :
    ∀ p ∈ params, ∃ v : UInt32, p = v.toNat ∧ CanDraw round opt tid v := by
  obtain ⟨vals, hvals, hpure⟩ := Option.bind_eq_some_iff.mp hparams
  cases hpure
  intro p hp
  obtain ⟨v, hv, rfl⟩ := mem_map.mp hp
  exact ⟨v, rfl, canDraw_of_drawValues hrand hvals v hv⟩

/-- A range starts at a value that the thread can draw, and ends `delta` above one. -/
theorem canDraw_of_rangesEvent (hrand : ∀ i, InRange (rand i)) {params : List ℤ}
    (hparams : rangesEvent round opt (threadInit round opt tid) rand = some params) :
    ∀ p ∈ params, ∃ v : UInt32, (p = v.toNat ∨ p = v.toNat + opt.delta) ∧
      CanDraw round opt tid v := by
  obtain ⟨vals, hvals, hpure⟩ := Option.bind_eq_some_iff.mp hparams
  cases hpure
  intro p hp
  obtain ⟨v, hv, hp⟩ := mem_flatMap.mp hp
  simp only [mem_cons, not_mem_nil, or_false] at hp
  exact ⟨v, hp, canDraw_of_drawValues hrand hvals v hv⟩

/-! ### Conversions -/

theorem toNat_floor (hx : 0 ≤ x) (hlt : x < 2 ^ 32) : (UInt32.ofNat ⌊x⌋₊).toNat = ⌊x⌋₊ := by
  apply UInt32.toNat_ofNat_of_lt
  rw [Nat.floor_lt hx]
  exact_mod_cast hlt

theorem toUInt32_eq_some_iff (hx : 0 ≤ x) {n : UInt32} :
    toUInt32 x = some n ↔ x < 2 ^ 32 ∧ n.toNat = ⌊x⌋₊ := by
  unfold toUInt32
  by_cases hlt : x < 2 ^ 32
  · rw [if_pos ⟨hx, hlt⟩, Option.some.injEq, ← UInt32.toNat_inj, toNat_floor hx hlt]
    simp [hlt, eq_comm]
  · simp [hlt]

variable [IsStrictOrderedRing K]

/-- The values that a thread can draw are those between the whole parts of the bounds, if the
upper bound is a 32-bit number. -/
theorem canDraw_iff (h : Rounds round) :
    CanDraw round opt tid v ↔ rmax round (threadInit round opt tid) < 2 ^ 32 ∧
      ⌊rmin round (threadInit round opt tid)⌋₊ ≤ v.toNat ∧
      v.toNat ≤ ⌊rmax round (threadInit round opt tid)⌋₊ := by
  have hmin := rmin_nonneg h opt tid
  have hle := rmin_le_rmax h opt tid
  constructor
  · rintro ⟨a, b, ha, hb, hav, hvb⟩
    rw [toUInt32_eq_some_iff hmin] at ha
    rw [toUInt32_eq_some_iff (hmin.trans hle)] at hb
    exact ⟨hb.1, by rw [← ha.2]; exact hav, by rw [← hb.2]; exact hvb⟩
  · rintro ⟨hlt, hav, hvb⟩
    refine ⟨UInt32.ofNat ⌊rmin round (threadInit round opt tid)⌋₊,
      UInt32.ofNat ⌊rmax round (threadInit round opt tid)⌋₊, ?_, ?_, ?_, ?_⟩
    · rw [toUInt32_eq_some_iff hmin]
      exact ⟨hle.trans_lt hlt, toNat_floor hmin (hle.trans_lt hlt)⟩
    · rw [toUInt32_eq_some_iff (hmin.trans hle)]
      exact ⟨hlt, toNat_floor (hmin.trans hle) hlt⟩
    · rw [UInt32.le_iff_toNat_le, toNat_floor hmin (hle.trans_lt hlt)]
      exact hav
    · rw [UInt32.le_iff_toNat_le, toNat_floor (hmin.trans hle) hlt]
      exact hvb

/-- With the uniform generator a value that a thread can draw is drawn in every round, unless
the upper bound is the greatest 32-bit number. -/
theorem drawValues_of_canDraw (h : Rounds round) (hv : CanDraw round opt tid v)
    (hlt : rmax round (threadInit round opt tid) < 2 ^ 32 - 1) :
    ∃ u : K, IsDraw u ∧ ∀ count, drawValues round (threadInit round opt tid)
      (fun _ => sbRandUniform u) count = some (replicate count v) := by
  obtain ⟨a, b, ha, hb, hav, hvb⟩ := hv
  have hmax := (rmin_nonneg h opt tid).trans (rmin_le_rmax h opt tid)
  have hwhole : ¬WholeRange a b := by
    rintro ⟨-, hlast⟩
    rw [((toUInt32_eq_some_iff hmax).mp hb).2] at hlast
    have hfloor : ⌊rmax round (threadInit round opt tid)⌋₊ < 2 ^ 32 - 1 := by
      rw [Nat.floor_lt hmax]
      norm_num at hlt ⊢
      exact hlt
    omega
  obtain ⟨u, hu, hdraw⟩ := exists_draw_uniform (K := K) hav hvb hwhole
  have hround : randDefault round (threadInit round opt tid) (sbRandUniform u) = some v := by
    simp [randDefault, ha, hb, hdraw]
  refine ⟨u, hu, ?_⟩
  intro count
  unfold drawValues
  simp only [hround]
  have hpure := mapM_pure (m := Option) (l := range count) (f := fun _ => v)
  simpa using hpure

theorem events_of_canDraw (h : Rounds round) (hv : CanDraw round opt tid v)
    (hlt : rmax round (threadInit round opt tid) < 2 ^ 32 - 1) :
    ∃ u : K, IsDraw u ∧
      pointsEvent round opt (threadInit round opt tid) (fun _ => sbRandUniform u) =
        some (replicate opt.randomPoints (v.toNat : ℤ)) ∧
      rangesEvent round opt (threadInit round opt tid) (fun _ => sbRandUniform u) =
        some (replicate opt.numberOfRanges
          [(v.toNat : ℤ), (v.toNat : ℤ) + opt.delta]).flatten := by
  obtain ⟨u, hu, hvalues⟩ := drawValues_of_canDraw h hv hlt
  refine ⟨u, hu, ?_, ?_⟩
  · simp [pointsEvent, hvalues]
  · simp [rangesEvent, hvalues, flatMap_def]

/-! ### The first two segments -/

theorem canDraw_zero (h : Rounds round) (hlt : (threadInit round opt 0).rlen < 2 ^ 32) :
    CanDraw round opt 0 0 := by
  rw [canDraw_iff h, rmin_first h, rmax_first h]
  exact ⟨hlt, by simp, by simp⟩

/-- If a segment is longer than the 32-bit numbers, no thread draws anything. -/
theorem not_canDraw (h : Rounds round) (hge : 2 ^ 32 ≤ (threadInit round opt 0).rlen) (tid : ℕ)
    (v : UInt32) : ¬CanDraw round opt tid v := by
  rw [canDraw_iff h]
  rintro ⟨hlt, -⟩
  exact absurd (lt_of_le_of_lt (rlen_le_rmax h opt tid) hlt) (not_lt_of_ge hge)

theorem canDraw_shared (h : Rounds round) (hthreads : 2 ≤ opt.threads)
    (hlt : rmax round (threadInit round opt 1) < 2 ^ 32) :
    ∃ v, CanDraw round opt 0 v ∧ CanDraw round opt 1 v := by
  have hle := rmin_le_rmax h opt 1
  rw [rmin_second h hthreads] at hle
  have hrlen := rlen_nonneg h opt 0
  have hfloor := toNat_floor hrlen (hle.trans_lt hlt)
  refine ⟨UInt32.ofNat ⌊(threadInit round opt 0).rlen⌋₊, ?_, ?_⟩
  · rw [canDraw_iff h, rmax_first h, rmin_first h, hfloor]
    exact ⟨hle.trans_lt hlt, by simp, le_rfl⟩
  · rw [canDraw_iff h, rmin_second h hthreads, hfloor]
    exact ⟨hlt, le_rfl, Nat.floor_le_floor hle⟩

/-- The segments never partition the table.  If its size is a 32-bit number, the first thread
draws 0, and a second thread draws a value of the first one's. -/
theorem segments_overlap (h : Rounds round) (opt : Opt) (hthreads : 1 ≤ opt.threads)
    (hsize : opt.threads ≤ opt.tableSize) :
    ¬Partition round opt ∧
      (opt.tableSize < 2 ^ 32 → CanDraw round opt 0 0 ∧
        (2 ≤ opt.threads → ∃ v, CanDraw round opt 0 v ∧ CanDraw round opt 1 v)) := by
  refine ⟨?_, ?_⟩
  · intro hpartition
    by_cases hlt : (threadInit round opt 0).rlen < 2 ^ 32
    · have hzero := hpartition.in_table 0 hthreads 0 (canDraw_zero h hlt)
      simp at hzero
    · -- Nothing can be drawn, not even the first row.
      obtain ⟨i, -, v, hv, -⟩ := hpartition.covers 1 le_rfl (hthreads.trans hsize)
      exact not_canDraw h (not_lt.mp hlt) i v hv
  · intro hfits
    refine ⟨canDraw_zero h (rlen_lt h hthreads hfits), ?_⟩
    intro htwo
    exact canDraw_shared h htwo (rmax_second_lt h htwo hfits)

/-- Ten rows and two threads -/
def tenRows : Opt := { tableSize := 10, threads := 2 }

theorem ten_rows_overlap :
    (1 ≤ tenRows.threads ∧ tenRows.threads ≤ tenRows.tableSize) ∧
      ¬Partition (id : ℚ → ℚ) tenRows :=
  ⟨by decide, (segments_overlap rounds_id tenRows (by decide) (by decide)).1⟩

/-- Both of two threads draw 5 of ten rows, and the first one draws 0. -/
theorem five_drawn_by_both_threads :
    CanDraw (id : ℚ → ℚ) tenRows 0 5 ∧ CanDraw (id : ℚ → ℚ) tenRows 1 5 ∧
      CanDraw (id : ℚ → ℚ) tenRows 0 0 ∧ ¬Partition (id : ℚ → ℚ) tenRows := by
  have hfive : (5 : UInt32).toNat = 5 := rfl
  have hfirst : CanDraw (id : ℚ → ℚ) tenRows 0 5 := by
    rw [canDraw_iff rounds_id, hfive]
    norm_num [rmin, rmax, threadInit, tenRows]
  have hsecond : CanDraw (id : ℚ → ℚ) tenRows 1 5 := by
    rw [canDraw_iff rounds_id, hfive]
    norm_num [rmin, rmax, threadInit, tenRows]
  have hzero : CanDraw (id : ℚ → ℚ) tenRows 0 0 := by
    rw [canDraw_iff rounds_id]
    norm_num [rmin, rmax, threadInit, tenRows]
  refine ⟨hfirst, hsecond, hzero, ?_⟩
  intro hpartition
  exact hpartition.disjoint 0 (by decide) 1 (by decide) (by decide) 5 ⟨hfirst, hsecond⟩

end Sysbench.RandomSegments
