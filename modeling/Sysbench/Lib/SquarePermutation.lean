/-
Squaring modulo a prime, folded into a permutation.

Squaring is two-to-one on the non-zero residues of a prime `p`, so it is not a
permutation.  When `p` is 3 modulo 4 it can be made one: the squares of the lower
half of the residues are pairwise different, and the negatives of the squares of
the upper half are the non-squares, because `-1` is not a square.  `fold` is that
map on the natural numbers below `p`, and `fold_injOn` is the whole argument.
-/
import Mathlib.NumberTheory.LegendreSymbol.Basic

namespace SquarePermutation

/-- The square of a lower-half residue, and the negated square of an upper-half one. -/
def fold (p x : ℕ) : ℕ :=
  if x ≤ p / 2 then x * x % p else p - x * x % p

theorem dvd_of_sq_mod_eq {p x y : ℕ} (hp : p.Prime) (hyx : y ≤ x)
    (h : x * x % p = y * y % p) : p ∣ x - y ∨ p ∣ x + y := by
  have hmod : p ∣ x * x - y * y :=
    (Nat.modEq_iff_dvd' (Nat.mul_le_mul hyx hyx)).mp h.symm
  rw [Nat.mul_self_sub_mul_self_eq, mul_comm] at hmod
  exact (Nat.Prime.dvd_mul hp).mp hmod

theorem eq_of_sq_mod_eq {p x y : ℕ} (hp : p.Prime) (hx : x < p)
    (hsum : ∀ k, x + y = k → p ∣ k → k = 0) (hyx : y ≤ x)
    (h : x * x % p = y * y % p) : x = y := by
  rcases dvd_of_sq_mod_eq hp hyx h with hd | hs
  · have hz : x - y = 0 := Nat.eq_zero_of_dvd_of_lt hd (by omega)
    omega
  · have hz := hsum _ rfl hs
    omega

theorem sq_add_sq_ne {p x y : ℕ} (hp : p.Prime) (h4 : p % 4 = 3) (hy0 : y ≠ 0) (hy : y < p)
    (h : x * x % p = p - y * y % p) : False := by
  have : Fact p.Prime := ⟨hp⟩
  have hlt : y * y % p < p := Nat.mod_lt _ hp.pos
  have hsum : p ∣ x * x + y * y := by
    refine Nat.dvd_of_mod_eq_zero ?_
    rw [Nat.add_mod, h]
    have : p - y * y % p + y * y % p = p := by omega
    rw [this, Nat.mod_self]
  have hzmod : (x : ZMod p) ^ 2 = -(y : ZMod p) ^ 2 := by
    have hz : ((x * x + y * y : ℕ) : ZMod p) = 0 := (ZMod.natCast_eq_zero_iff _ _).mpr hsum
    push_cast at hz
    rw [sq, sq]
    exact eq_neg_of_add_eq_zero_left hz
  have hyne : (y : ZMod p) ≠ 0 := by
    intro hc
    exact hy0 (Nat.eq_zero_of_dvd_of_lt ((ZMod.natCast_eq_zero_iff _ _).mp hc) hy)
  exact ZMod.mod_four_ne_three_of_sq_eq_neg_sq' hyne hzmod h4

/-- **Folded squaring is injective below a prime that is 3 modulo 4.** -/
theorem fold_injOn {p : ℕ} (hp : p.Prime) (h4 : p % 4 = 3) :
    Set.InjOn (fold p) (Set.Iio p) := by
  intro x hx y hy h
  simp only [Set.mem_Iio] at hx hy
  have hym : y * y % p < p := Nat.mod_lt _ hp.pos
  unfold fold at h
  by_cases hxl : x ≤ p / 2 <;> by_cases hyl : y ≤ p / 2
  · -- Both in the lower half: the sum is below `p`.
    rw [if_pos hxl, if_pos hyl] at h
    have hsmall : ∀ k, x + y = k → p ∣ k → k = 0 := by
      intro k hk hd
      exact Nat.eq_zero_of_dvd_of_lt hd (by omega)
    rcases Nat.le_total y x with hle | hle
    · exact eq_of_sq_mod_eq hp hx hsmall hle h
    · exact (eq_of_sq_mod_eq hp hy (fun k hk => hsmall k (by omega)) hle h.symm).symm
  · rw [if_pos hxl, if_neg hyl] at h
    exact (sq_add_sq_ne hp h4 (by omega) hy h).elim
  · rw [if_neg hxl, if_pos hyl] at h
    exact (sq_add_sq_ne hp h4 (by omega) hx h.symm).elim
  · -- Both in the upper half: the sum lies strictly between `p` and `2 p`.
    rw [if_neg hxl, if_neg hyl] at h
    have hsq : x * x % p = y * y % p := by omega
    have hlarge : ∀ k, x + y = k → p ∣ k → k = 0 := by
      rintro k hk ⟨c, hc⟩
      rcases Nat.lt_or_ge c 2 with hc2 | hc2
      · interval_cases c <;> omega
      · have := Nat.mul_le_mul_left p hc2
        omega
    rcases Nat.le_total y x with hle | hle
    · exact eq_of_sq_mod_eq hp hx hlarge hle hsq
    · exact (eq_of_sq_mod_eq hp hy (fun k hk => hlarge k (by omega)) hle hsq.symm).symm

theorem fold_lt {p x : ℕ} (hp : p.Prime) (hx : x < p) : fold p x < p := by
  have hxm : x * x % p < p := Nat.mod_lt _ hp.pos
  unfold fold
  split
  · exact hxm
  · have hne : x * x % p ≠ 0 := by
      intro hc
      have hd : p ∣ x := by
        rcases (Nat.Prime.dvd_mul hp).mp (Nat.dvd_of_mod_eq_zero hc) with hd | hd <;> exact hd
      have := Nat.eq_zero_of_dvd_of_lt hd hx
      omega
    omega

end SquarePermutation
