/-
What the sizes that `sb_print_value_size` prints stand for.

The loop may divide once for every byte of `sizemods`, and the last of these is its NUL.  So a
value of `1024 ^ 5` or more is divided five times and printed without a letter, in front of
the `i`; a smaller one is printed as it should be.
-/
import Mathlib.Algebra.Order.Field.Basic
import Mathlib.Tactic.NormNum
import Sysbench.Model.PrintSize

namespace Sysbench.Options

variable {K : Type} [Field K] [LinearOrder K] [IsStrictOrderedRing K]

/-- The loop divides `k` times: it was right to do so, and it has no rounds left or is right to
stop. -/
theorem printSizeLoop_spec (left i : ℕ) (v : K) :
    ∃ k ≤ left, printSizeLoop left i v = (i + k, v / 1024 ^ k) ∧
      (k = 0 ∨ 1024 ^ k ≤ v) ∧ (k = left ∨ v < 1024 ^ (k + 1)) := by
  induction left generalizing i v with
  | zero => exact ⟨0, le_rfl, by simp [printSizeLoop], .inl rfl, .inl rfl⟩
  | succ left ih =>
    unfold printSizeLoop
    by_cases hv : 1024 ≤ v
    · obtain ⟨k, hk, hloop, hlow, hhigh⟩ := ih (i + 1) (v / 1024)
      rw [if_pos hv, hloop]
      refine ⟨k + 1, Nat.succ_le_succ hk, ?_, .inr ?_, ?_⟩
      · rw [div_div, ← pow_succ', Nat.add_assoc, Nat.add_comm 1 k]
      · rcases hlow with rfl | hlow
        · simpa using hv
        · rw [pow_succ]
          exact (le_div_iff₀ (by norm_num)).mp hlow
      · rcases hhigh with rfl | hhigh
        · exact .inl rfl
        · rw [pow_succ]
          exact .inr ((div_lt_iff₀ (by norm_num)).mp hhigh)
    · rw [if_neg hv]
      exact ⟨0, Nat.zero_le _, by simp, .inl rfl, .inr (by simpa using hv)⟩

theorem printedSize_spec (v : K) :
    ∃ k ≤ 5, printedSize v = (v / 1024 ^ k, if 0 < k then some (k - 1) else none) ∧
      (k = 0 ∨ 1024 ^ k ≤ v) ∧ (k = 5 ∨ v < 1024 ^ (k + 1)) := by
  obtain ⟨k, hk, hloop, hbounds⟩ := printSizeLoop_spec (sizemods.length + 1) 0 v
  refine ⟨k, hk, ?_, hbounds⟩
  unfold printedSize
  rw [hloop]
  by_cases hpos : 0 < k
  · simp [hpos]
  · simp [hpos]

/-- The size is printed faithfully: with no letter below 1024, and else with that of the power of
1024 it is divided by. -/
structure FaithfulSize (v : K) : Prop where
  small : v < 1024 → printedSize v = (v, none)
  large : 1024 ≤ v → ∃ x k, 1 ≤ k ∧ k ≤ 4 ∧ printedSize v = (x, some (k - 1)) ∧ x * 1024 ^ k = v

omit [IsStrictOrderedRing K] in
/-- What `sb_print_value_size` leaves in the buffer then: the number, and the letter with an `i`. -/
theorem FaithfulSize.text {v : K} (h : FaithfulSize v) (format : K → Text) (buflen : ℕ) :
    ∃ x unit, sbPrintValueSize format buflen v = (format x ++ unit).take (buflen - 1) ∧
      (unit = [] ∧ x = v ∨
        ∃ k c, sizemods[k]? = some c ∧ unit = [c, 'i'] ∧ x * 1024 ^ (k + 1) = v) := by
  unfold sbPrintValueSize
  rcases lt_or_ge v 1024 with hv | hv
  · rw [h.small hv]
    exact ⟨v, [], by rw [List.append_nil], .inl ⟨rfl, rfl⟩⟩
  · obtain ⟨x, k, hpos, hk, hx, hvalue⟩ := h.large hv
    rw [hx]
    obtain ⟨j, rfl⟩ := Nat.exists_eq_add_of_le' hpos
    refine ⟨x, _, rfl, .inr ⟨j, _, ?_, rfl, hvalue⟩⟩
    obtain rfl | rfl | rfl | rfl : j = 0 ∨ j = 1 ∨ j = 2 ∨ j = 3 := by omega
    all_goals rfl

/-- **Sizes are printed faithfully below `1024 ^ 5`, and no other size is.** -/
theorem printed_size_iff (v : K) : FaithfulSize v ↔ v < 1024 ^ 5 := by
  obtain ⟨k, hk, hprinted, hlow, hhigh⟩ := printedSize_spec v
  have hmono : ∀ {m n : ℕ}, m ≤ n → (1024 : K) ^ m ≤ 1024 ^ n := by
    intro m n hmn
    exact pow_le_pow_right₀ (by norm_num) hmn
  constructor
  · intro h
    by_contra hlarge
    rw [not_lt] at hlarge
    have hfive : k = 5 := by
      rcases hhigh with rfl | hhigh
      · rfl
      · by_contra hne
        exact absurd (hhigh.trans_le (hmono (by omega))) (not_lt.mpr hlarge)
    have hv : 1024 ≤ v := by
      simpa using (hmono (by decide : 1 ≤ 5)).trans hlarge
    obtain ⟨x, n, -, hn, hx, -⟩ := h.large hv
    rw [hprinted, hfive] at hx
    simp at hx
    omega
  · intro hv
    have hne : k ≠ 5 := by
      rintro rfl
      exact absurd hv (not_lt.mpr (hlow.resolve_left (by decide)))
    constructor
    · intro hsmall
      have hzero : k = 0 := by
        by_contra hpos
        have hone := (hmono (Nat.one_le_iff_ne_zero.mpr hpos)).trans (hlow.resolve_left hpos)
        exact absurd hsmall (not_lt.mpr (by simpa using hone))
      simp [hprinted, hzero]
    · intro hlarge
      have hpos : k ≠ 0 := by
        rintro rfl
        exact absurd (hhigh.resolve_left (by decide)) (not_lt.mpr (by simpa using hlarge))
      refine ⟨v / 1024 ^ k, k, by omega, by omega, ?_, div_mul_cancel₀ v (by positivity)⟩
      rw [hprinted, if_pos (by omega)]

theorem mebibyte_is_printed : FaithfulSize ((1024 : ℚ) ^ 2) :=
  (printed_size_iff _).mpr (by norm_num)

/-- A pebibyte is printed with the NUL of `sizemods` for a letter. -/
theorem pebibyte_has_no_letter :
    printedSize ((1024 : ℚ) ^ 5) = (1, some 4) ∧ ¬FaithfulSize ((1024 : ℚ) ^ 5) := by
  have hprinted : printedSize ((1024 : ℚ) ^ 5) = (1, some 4) := by
    norm_num [printedSize, printSizeLoop, sizemods]
  refine ⟨hprinted, ?_⟩
  intro h
  obtain ⟨x, k, -, hk, hx, -⟩ := h.large (by norm_num)
  rw [hprinted] at hx
  simp at hx
  omega

end Sysbench.Options
