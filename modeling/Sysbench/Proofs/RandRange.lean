/-
The ranges of the generators.

The width `b - a + 1` is computed in 32 bits and wraps to 0 for the whole range, where every
draw then gives `a`.  The number of draws that `sb_rand_gaussian` takes the mean of comes
from an option that is not among those registered, so it is 0, and the mean is a quotient by
zero.  `rand_range_iff` says that nothing else goes wrong.
-/
import Mathlib.Data.Rat.Floor
import Sysbench.Lib.Runs
import Sysbench.Model.RandRange
import Sysbench.Proofs.OptionsLookup

namespace Sysbench.Rand

open List Options

variable {K : Type} [Field K] [LinearOrder K] [IsStrictOrderedRing K] [FloorSemiring K]

/-! ### The width -/

/-- The range is that of all 32-bit numbers. -/
def WholeRange (a b : UInt32) : Prop :=
  a.toNat = 0 ∧ b.toNat = 2 ^ 32 - 1

instance (a b : UInt32) : Decidable (WholeRange a b) :=
  inferInstanceAs (Decidable (_ ∧ _))

variable {a b : UInt32}

theorem width_eq (hab : a ≤ b) :
    (b - a + 1).toNat = if WholeRange a b then 0 else b.toNat - a.toNat + 1 := by
  have hlt := b.toNat_lt
  rw [UInt32.toNat_add, UInt32.toNat_sub_of_le _ _ hab]
  show (b.toNat - a.toNat + 1) % 2 ^ 32 = _
  by_cases hwhole : WholeRange a b
  · obtain ⟨ha, hb⟩ := hwhole
    rw [if_pos ⟨ha, hb⟩]
    omega
  · rw [if_neg hwhole]
    have hsome : ¬(a.toNat = 0 ∧ b.toNat = 2 ^ 32 - 1) := hwhole
    omega

theorem width_le (hab : a ≤ b) : ((b - a + 1).toNat : K) ≤ ((b.toNat - a.toNat : ℕ) : K) + 1 := by
  have hnat : (b - a + 1).toNat ≤ b.toNat - a.toNat + 1 := by
    rw [width_eq hab]
    split
    · omega
    · omega
  exact_mod_cast hnat

/-! ### Conversions -/

theorem toUInt32_of_lt {x : K} (hx : 0 ≤ x) {d : ℕ} (hd : d < 2 ^ 32) (hlt : x < (d : K) + 1) :
    ∃ n, toUInt32 x = some n ∧ n.toNat = ⌊x⌋₊ ∧ n.toNat ≤ d := by
  have hfloor : ⌊x⌋₊ ≤ d := by
    apply Nat.lt_succ_iff.mp
    rw [Nat.floor_lt hx]
    exact_mod_cast hlt
  have hbound : x < 2 ^ 32 := by
    apply lt_of_lt_of_le hlt
    exact_mod_cast hd
  have hnat : (UInt32.ofNat ⌊x⌋₊).toNat = ⌊x⌋₊ := UInt32.toNat_ofNat_of_lt (by
    show _ < 2 ^ 32
    omega)
  exact ⟨UInt32.ofNat ⌊x⌋₊, if_pos ⟨hx, hbound⟩, hnat, by omega⟩

theorem add_in_range {n : UInt32} (hab : a ≤ b) (hn : n.toNat ≤ b.toNat - a.toNat) :
    a ≤ a + n ∧ a + n ≤ b := by
  have hle : a.toNat ≤ b.toNat := UInt32.le_iff_toNat_le.mp hab
  have hlt := b.toNat_lt
  have hsum : (a + n).toNat = a.toNat + n.toNat := by
    rw [UInt32.toNat_add]
    omega
  rw [UInt32.le_iff_toNat_le, UInt32.le_iff_toNat_le, hsum]
  omega

/-- A draw -/
def IsDraw (u : K) : Prop :=
  0 ≤ u ∧ u < 1

theorem IsDraw.mul_width {u : K} (hu : IsDraw u) (hab : a ≤ b) :
    0 ≤ u * ((b - a + 1).toNat : K) ∧
      u * ((b - a + 1).toNat : K) < ((b.toNat - a.toNat : ℕ) : K) + 1 := by
  have hwidth := width_le (K := K) hab
  have hnonneg : (0 : K) ≤ ((b - a + 1).toNat : K) := Nat.cast_nonneg _
  have hpos : (0 : K) < ((b.toNat - a.toNat : ℕ) : K) + 1 := by positivity
  refine ⟨mul_nonneg hu.1 hnonneg, ?_⟩
  calc u * ((b - a + 1).toNat : K) ≤ u * (((b.toNat - a.toNat : ℕ) : K) + 1) :=
        mul_le_mul_of_nonneg_left hwidth hu.1
    _ < ((b.toNat - a.toNat : ℕ) : K) + 1 := mul_lt_of_lt_one_left hpos hu.2

/-! ### The generators -/

/-- `sb_rand_uniform` stays in the range and reaches all of it. -/
def UniformRight (K : Type) [Field K] [LinearOrder K] [FloorSemiring K] (a b : UInt32) : Prop :=
  (∀ u : K, IsDraw u → ∃ v, sbRandUniform u a b = some v ∧ a ≤ v ∧ v ≤ b) ∧
    ∀ v, a ≤ v → v ≤ b → ∃ u : K, IsDraw u ∧ sbRandUniform u a b = some v

/-- `sb_rand_gaussian` stays in the range. -/
def GaussianRight (cfg : RandConfig K) (a b : UInt32) : Prop :=
  ∀ draws : ℕ → K, (∀ i, IsDraw (draws i)) →
    ∃ v, sbRandGaussian cfg draws a b = some v ∧ a ≤ v ∧ v ≤ b

/-- `sb_rand_pareto` stays in the range. -/
def ParetoRight (power : K → K) (a b : UInt32) : Prop :=
  ∀ u, IsDraw u → ∃ v, sbRandPareto power u a b = some v ∧ a ≤ v ∧ v ≤ b

theorem sbRandUniform_in_range {u : K} (hu : IsDraw u) (hab : a ≤ b) :
    ∃ v, sbRandUniform u a b = some v ∧ a ≤ v ∧ v ≤ b := by
  have hle : a.toNat ≤ b.toNat := UInt32.le_iff_toNat_le.mp hab
  obtain ⟨hnonneg, hlt⟩ := hu.mul_width hab
  have hx : (a.toNat : K) ≤ (a.toNat : K) + u * ((b - a + 1).toNat : K) :=
    le_add_of_nonneg_right hnonneg
  have hsum : (a.toNat : K) + u * ((b - a + 1).toNat : K) < (b.toNat : K) + 1 := by
    have hcast : ((b.toNat - a.toNat : ℕ) : K) = (b.toNat : K) - a.toNat := Nat.cast_sub hle
    linarith
  have hpos : (0 : K) ≤ (a.toNat : K) + u * ((b - a + 1).toNat : K) :=
    le_trans (Nat.cast_nonneg _) hx
  obtain ⟨v, hv, hfloor, hvb⟩ := toUInt32_of_lt hpos b.toNat_lt hsum
  refine ⟨v, hv, UInt32.le_iff_toNat_le.mpr ?_, UInt32.le_iff_toNat_le.mpr hvb⟩
  rw [hfloor]
  exact Nat.le_floor hx

/-- Without a wrap every value has a draw that gives it. -/
theorem exists_draw_uniform {v : UInt32} (hav : a ≤ v) (hvb : v ≤ b) (hwhole : ¬WholeRange a b) :
    ∃ u : K, IsDraw u ∧ sbRandUniform u a b = some v := by
  have hab : a ≤ b := UInt32.le_trans hav hvb
  have hav' : a.toNat ≤ v.toNat := UInt32.le_iff_toNat_le.mp hav
  have hvb' : v.toNat ≤ b.toNat := UInt32.le_iff_toNat_le.mp hvb
  have hwidth := width_eq hab
  rw [if_neg hwhole] at hwidth
  have hpos : (0 : K) < ((b - a + 1).toNat : K) := by
    rw [hwidth]
    positivity
  refine ⟨((v.toNat - a.toNat : ℕ) : K) / ((b - a + 1).toNat : K), ⟨by positivity, ?_⟩, ?_⟩
  · rw [div_lt_one hpos, hwidth]
    exact_mod_cast (by omega : v.toNat - a.toNat < b.toNat - a.toNat + 1)
  · have hvalue : (a.toNat : K) + ((v.toNat - a.toNat : ℕ) : K) / ((b - a + 1).toNat : K)
        * ((b - a + 1).toNat : K) = (v.toNat : K) := by
      rw [div_mul_cancel₀ _ hpos.ne', Nat.cast_sub hav', add_sub_cancel]
    have hlt : (v.toNat : K) < (v.toNat : K) + 1 := lt_add_one _
    obtain ⟨n, hn, hfloor, -⟩ := toUInt32_of_lt (Nat.cast_nonneg v.toNat) v.toNat_lt hlt
    rw [sbRandUniform, hvalue, hn]
    rw [Nat.floor_natCast] at hfloor
    rw [UInt32.toNat_inj.mp hfloor]

theorem uniformRight_iff (hab : a ≤ b) : UniformRight K a b ↔ ¬WholeRange a b := by
  constructor
  · rintro ⟨-, hreach⟩ hwhole
    -- Every draw gives 0, so none gives 1.
    obtain ⟨ha, hb⟩ := hwhole
    have hone : a ≤ 1 ∧ (1 : UInt32) ≤ b := by
      rw [UInt32.le_iff_toNat_le, UInt32.le_iff_toNat_le, ha, hb]
      decide
    obtain ⟨u, -, hu⟩ := hreach 1 hone.1 hone.2
    rw [sbRandUniform, width_eq hab, if_pos ⟨ha, hb⟩, ha] at hu
    simp [toUInt32] at hu
  · intro hwhole
    exact ⟨fun u hu => sbRandUniform_in_range hu hab,
      fun v hav hvb => exists_draw_uniform hav hvb hwhole⟩

theorem paretoRight {power : K → K} (hpower : ∀ u, IsDraw u → IsDraw (power u)) (hab : a ≤ b) :
    ParetoRight power a b := by
  intro u hu
  obtain ⟨hnonneg, hlt⟩ := (hpower u hu).mul_width hab
  have hbound : b.toNat - a.toNat < 2 ^ 32 := Nat.lt_of_le_of_lt (Nat.sub_le _ _) b.toNat_lt
  rw [mul_comm] at hnonneg hlt
  obtain ⟨n, hn, -, hle⟩ := toUInt32_of_lt hnonneg hbound hlt
  refine ⟨a + n, ?_, add_in_range hab hle⟩
  rw [sbRandPareto, hn]
  rfl

/-! ### The mean -/

section Sums

omit [FloorSemiring K]

theorem sum_bounds {f : ℕ → K} {bound : K} (hf : ∀ i, 0 ≤ f i ∧ f i < bound) (n : ℕ) :
    0 ≤ (range n).foldl (fun sum i => sum + f i) 0 ∧
      (range n).foldl (fun sum i => sum + f i) 0 ≤ n * bound := by
  induction n with
  | zero => simp
  | succ n ih =>
    obtain ⟨hnonneg, hlt⟩ := hf n
    rw [range_succ, foldl_append, foldl_cons, foldl_nil, Nat.cast_succ,
      add_mul, one_mul]
    exact ⟨add_nonneg ih.1 hnonneg, add_le_add ih.2 hlt.le⟩

theorem mean_lt {f : ℕ → K} {bound : K} (hf : ∀ i, 0 ≤ f i ∧ f i < bound) {n : ℕ} (hn : n ≠ 0) :
    (range n).foldl (fun sum i => sum + f i) 0 * (1 / (n : K)) < bound := by
  obtain ⟨m, rfl⟩ := Nat.exists_eq_succ_of_ne_zero hn
  have hpos : (0 : K) < (m.succ : K) := by positivity
  have hsum : (range m.succ).foldl (fun sum i => sum + f i) 0 < m.succ * bound := by
    rw [range_succ, foldl_append, foldl_cons, foldl_nil, Nat.cast_succ,
      add_mul, one_mul]
    exact add_lt_add_of_le_of_lt (sum_bounds hf m).2 (hf m).2
  rw [mul_one_div, div_lt_iff₀ hpos, mul_comm bound]
  exact hsum

end Sums

/-- The mean is in the range if it is a mean of something. -/
theorem gaussianRight_iff {cfg : RandConfig K}
    (hmult : cfg.randIterMult = quotient 1 (cfg.randIter.toNat : K)) (hab : a ≤ b) :
    GaussianRight cfg a b ↔ cfg.randIter ≠ 0 := by
  constructor
  · intro h hzero
    obtain ⟨v, hv, -⟩ := h (fun _ => 0) fun _ => ⟨le_refl 0, zero_lt_one⟩
    rw [sbRandGaussian, hmult, hzero] at hv
    simp [quotient] at hv
  · intro hiter draws hdraws
    have hnat : cfg.randIter.toNat ≠ 0 := fun h => hiter (UInt32.toNat_inj.mp h)
    have hcast : (cfg.randIter.toNat : K) ≠ 0 := Nat.cast_ne_zero.mpr hnat
    have hsummands (i : ℕ) := (hdraws i).mul_width hab
    have hbound : b.toNat - a.toNat < 2 ^ 32 := Nat.lt_of_le_of_lt (Nat.sub_le _ _) b.toNat_lt
    have hnonneg := mul_nonneg (sum_bounds hsummands cfg.randIter.toNat).1
      (by positivity : (0 : K) ≤ 1 / (cfg.randIter.toNat : K))
    obtain ⟨n, hn, -, hle⟩ := toUInt32_of_lt hnonneg hbound (mean_lt hsummands hnat)
    refine ⟨a + n, ?_, add_in_range hab hle⟩
    rw [sbRandGaussian, hmult, quotient, if_neg hcast]
    show (toUInt32 _ >>= fun n => pure (a + n)) = _
    rw [hn]
    rfl

/-! ### Options -/

/-- The option that says how many draws to take the mean of. -/
def specIter : Text :=
  "rand-spec-iter".toList

/-- There is such an option, and it is not 0 as an `unsigned int`. -/
def HasSpecIter (options : Registry) : Prop :=
  ∃ n, sbGetValueInt options specIter = some n ∧ UInt32.ofInt n ≠ 0

/-- The list holds registered options only. -/
def OnlyRegistered (options : Registry) : Prop :=
  ∀ opt ∈ options, ∃ arg ∈ generalArgs ++ randArgs, Alike opt.name arg.name

variable {options : Registry}

theorem intOption_eq_ok {name : String} {n : ℤ} (h : intOption options name = .ok n) :
    sbGetValueInt options name.toList = some n := by
  unfold intOption at h
  split at h
  · cases h
  · rename_i m hm
    cases h
    exact hm

omit [IsStrictOrderedRing K] [FloorSemiring K] in
theorem sbRandInit_spec {strtod : Text → K} {cfg : RandConfig K}
    (h : sbRandInit strtod options = .ok cfg) :
    cfg.randIterMult = quotient 1 (cfg.randIter.toNat : K) ∧
      ∃ n, sbGetValueInt options specIter = some n ∧ cfg.randIter = UInt32.ofInt n := by
  obtain ⟨seed, -, h⟩ := Runs.bind_eq_ok.mp h
  obtain ⟨randType, -, h⟩ := Runs.bind_eq_ok.mp h
  obtain ⟨iter, hiter, h⟩ := Runs.bind_eq_ok.mp h
  obtain ⟨pct, -, h⟩ := Runs.bind_eq_ok.mp h
  obtain ⟨res, -, h⟩ := Runs.bind_eq_ok.mp h
  split at h
  · cases h
  · cases h
    exact ⟨rfl, iter, intOption_eq_ok hiter, rfl⟩

theorem not_hasSpecIter (h : OnlyRegistered options) : ¬HasSpecIter options := by
  have hunknown : ∀ arg ∈ generalArgs ++ randArgs, ¬Alike specIter arg.name := by
    intro arg harg halike
    have hall : (generalArgs ++ randArgs).all fun arg => !optNameCmp specIter arg.name := by decide
    have hcmp := all_eq_true.mp hall arg harg
    rw [(optNameCmp_iff _ _).mpr halike] at hcmp
    cases hcmp
  have hnone : findOption options specIter = none := by
    apply find?_eq_none.mpr
    intro opt hopt hcmp
    obtain ⟨arg, harg, hname⟩ := h opt hopt
    have halike : Alike opt.name specIter := (optNameCmp_iff _ _).mp hcmp
    exact hunknown arg harg (halike.symm.trans hname)
  rintro ⟨n, hn, hne⟩
  rw [sbGetValueInt, hnone] at hn
  cases hn
  exact hne rfl

/-- **The ranges of the generators.**  For bounds `a ≤ b` they all do what they should if the range
is not that of all 32-bit numbers and there is an option `rand-spec-iter` that is not 0; the
registered options have none. -/
theorem rand_range_iff (strtod : Text → K) (options : Registry) (cfg : RandConfig K)
    (h : sbRandInit strtod options = .ok cfg) (power : K → K)
    (hpower : ∀ u, IsDraw u → IsDraw (power u)) (a b : UInt32) (hab : a ≤ b) :
    (UniformRight K a b ∧ GaussianRight cfg a b ∧ ParetoRight power a b ↔
      ¬WholeRange a b ∧ HasSpecIter options) ∧
      (OnlyRegistered options → ¬GaussianRight cfg a b) := by
  obtain ⟨hmult, n, hn, hiter⟩ := sbRandInit_spec h
  have hgaussian : GaussianRight cfg a b ↔ HasSpecIter options := by
    rw [gaussianRight_iff hmult hab, hiter, HasSpecIter, hn]
    simp
  constructor
  · rw [uniformRight_iff hab, hgaussian]
    exact ⟨fun ⟨hu, hg, _⟩ => ⟨hu, hg⟩, fun ⟨hu, hg⟩ => ⟨hu, hg, paretoRight hpower hab⟩⟩
  · intro hregistered
    rw [hgaussian]
    exact not_hasSpecIter hregistered

/-- `strtod` on the two defaults -/
def tenths (s : Text) : ℚ :=
  if s = "0.2".toList then 1 / 5 else if s = "0.8".toList then 4 / 5 else 0

/-- The options of the generators with their defaults. -/
def defaultOptions : Registry :=
  (sbRegisterArgSet (fun _ => none) [] randArgs).1

/-- The same after a configuration file with the line `rand-spec-iter=12`. -/
def optionsWithIter : Registry :=
  readConfig defaultOptions ["rand-spec-iter=12".toList]

theorem twelve_draws_are_in_range :
    ∃ cfg, sbRandInit tenths optionsWithIter = .ok cfg ∧ UniformRight ℚ 1 10 ∧
      GaussianRight cfg 1 10 ∧ ParetoRight (fun u : ℚ => u * u) 1 10 := by
  have hsquare (u : ℚ) (hu : IsDraw u) : IsDraw (u * u) :=
    ⟨mul_nonneg hu.1 hu.1, mul_lt_one_of_nonneg_of_lt_one_left hu.1 hu.2 hu.2.le⟩
  obtain ⟨cfg, hcfg⟩ :=
    Runs.exists_ok (by decide +kernel : (sbRandInit tenths optionsWithIter).isOk = true)
  refine ⟨cfg, hcfg, ?_⟩
  exact (rand_range_iff tenths optionsWithIter cfg hcfg (fun u => u * u) hsquare 1 10
    (by decide)).1.mpr ⟨by decide, 12, by decide +kernel, by decide⟩

/-- With the registered options the mean of `sb_rand_gaussian` is a quotient by zero, and
`sb_rand_uniform` never returns 1 out of all 32-bit numbers. -/
theorem mean_of_nothing_and_wrapped_width :
    (∃ cfg, sbRandInit tenths defaultOptions = .ok cfg ∧
      sbRandGaussian cfg (fun _ => 0) 1 10 = none) ∧
      sbRandUniform (0 : ℚ) 0 4294967295 = some 0 ∧
      sbRandUniform (1 / 2 : ℚ) 0 4294967295 = some 0 ∧ ¬UniformRight ℚ 0 4294967295 := by
  refine ⟨?_, by decide +kernel, by decide +kernel, ?_⟩
  · obtain ⟨cfg, hcfg⟩ :=
      Runs.exists_ok (by decide +kernel : (sbRandInit tenths defaultOptions).isOk = true)
    obtain ⟨hmult, n, hn, hiter⟩ := sbRandInit_spec hcfg
    have hzero : sbGetValueInt defaultOptions specIter = some 0 := by decide +kernel
    rw [hzero, Option.some.injEq] at hn
    subst hn
    refine ⟨cfg, hcfg, ?_⟩
    have hnone : (UInt32.ofInt 0).toNat = 0 := by decide
    rw [sbRandGaussian, hmult, hiter, hnone]
    simp [quotient]
  · exact fun h => (uniformRight_iff (by decide)).mp h (by decide)

end Sysbench.Rand
