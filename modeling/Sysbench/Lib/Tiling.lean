/-
Ranges of positions laid end to end.

`Tiles bound lo rs hi` says that the ranges `rs`, each a start and a length, lead from `lo`
to `hi` without a gap, none of them empty or longer than `bound`.  A tiling grows at its
end, and every position between its ends lies in exactly one range.
-/
import Mathlib.Data.Nat.Notation

namespace Tiling

/-- The ranges follow each other from `lo` to `hi`. -/
def Tiles (bound : ℕ) : ℕ → List (ℕ × ℕ) → ℕ → Prop
  | lo, [], hi => lo = hi
  | lo, r :: rs, hi => r.1 = lo ∧ 0 < r.2 ∧ r.2 ≤ bound ∧ Tiles bound (lo + r.2) rs hi

/-- The position `x` lies in the range `r`. -/
def Covers (x : ℕ) (r : ℕ × ℕ) : Bool :=
  decide (r.1 ≤ x ∧ x < r.1 + r.2)

variable {bound lo hi : ℕ} {rs : List (ℕ × ℕ)}

theorem Tiles.nil (bound lo : ℕ) : Tiles bound lo [] lo := rfl

theorem Tiles.snoc (h : Tiles bound lo rs hi) {n : ℕ} (hpos : 0 < n) (hn : n ≤ bound) :
    Tiles bound lo (rs ++ [(hi, n)]) (hi + n) := by
  induction rs generalizing lo with
  | nil =>
    have hlo : lo = hi := h
    subst hlo
    exact ⟨rfl, hpos, hn, rfl⟩
  | cons r rs ih =>
    obtain ⟨hstart, hr, hbound, hrest⟩ := h
    exact ⟨hstart, hr, hbound, ih hrest⟩

theorem Tiles.le (h : Tiles bound lo rs hi) : lo ≤ hi := by
  induction rs generalizing lo with
  | nil => exact Nat.le_of_eq h
  | cons r rs ih => exact Nat.le_trans (Nat.le_add_right _ _) (ih h.2.2.2)

/-- **No gap and no overlap.** A position lies in exactly one range if it is between the
ends, and in none otherwise. -/
theorem Tiles.countP_covers (h : Tiles bound lo rs hi) (x : ℕ) :
    rs.countP (Covers x) = if lo ≤ x ∧ x < hi then 1 else 0 := by
  induction rs generalizing lo with
  | nil =>
    have hlo : lo = hi := h
    rw [if_neg (by omega)]
    rfl
  | cons r rs ih =>
    obtain ⟨hstart, hr, -, hrest⟩ := h
    have hle := hrest.le
    rw [List.countP_cons, ih hrest]
    -- The first range ends where the rest begins, so at most one of the two counts.
    by_cases hin : lo ≤ x ∧ x < lo + r.2
    · have hcov : Covers x r = true := decide_eq_true (by omega)
      rw [if_neg (by omega), if_pos hcov, if_pos (by omega)]
    · have hcov : ¬Covers x r = true := by
        intro hc
        have := of_decide_eq_true hc
        omega
      rw [if_neg hcov]
      by_cases hx : lo + r.2 ≤ x ∧ x < hi
      · rw [if_pos hx, if_pos (by omega)]
      · rw [if_neg hx, if_neg (by omega)]

end Tiling
