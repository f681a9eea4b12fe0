/-
Counting in two digits.

The number `k` is read as the pair of `k / p % h` and `k % p`: the low digit runs through
its `p` values, and whenever it starts again the high digit moves on by one of its `h`.
The two lemmas on the successor are what a program does that keeps the digits; the last
theorem says that `h * p` numbers in a row have every pair once.
-/
import Mathlib.Data.Nat.ModEq

namespace RoundRobin

variable {h p k : ℕ}

/-- The two digits are the remainder by `p * h`. -/
theorem digits_iff (hp : 0 < p) {i j : ℕ} (hj : j < p) :
    k / p % h = i ∧ k % p = j ↔ k % (p * h) = j + p * i := by
  rw [Nat.mod_mul]
  constructor
  · rintro ⟨rfl, rfl⟩
    rfl
  · intro heq
    have hlow := congrArg (· % p) heq
    simp only [Nat.add_mul_mod_self_left, Nat.mod_mod, Nat.mod_eq_of_lt hj] at hlow
    have hhigh : p * (k / p % h) = p * i := by omega
    exact ⟨Nat.eq_of_mul_eq_mul_left hp hhigh, hlow⟩

/-- One in `m` numbers in a row has a given remainder by `m`. -/
theorem existsUnique_mod {m : ℕ} {r : ℕ} (hr : r < m) (start : ℕ) :
    ∃! k, (start ≤ k ∧ k < start + m) ∧ k % m = r := by
  have hm : 0 < m := by omega
  have hlt := Nat.mod_lt start hm
  refine ⟨start + (r + (m - start % m)) % m, ⟨⟨Nat.le_add_right _ _, ?_⟩, ?_⟩, ?_⟩
  · have hoff := Nat.mod_lt (r + (m - start % m)) hm
    omega
  · have hstart := Nat.div_add_mod start m
    have hsum : start + (r + (m - start % m)) = r + m * (start / m + 1) := by
      rw [Nat.mul_add]
      omega
    rw [Nat.add_mod_mod, hsum, Nat.add_mul_mod_self_left, Nat.mod_eq_of_lt hr]
  · rintro k ⟨⟨hle, hlt'⟩, hmod⟩
    obtain ⟨a, rfl⟩ := Nat.exists_eq_add_of_le hle
    have hstart := Nat.div_add_mod start m
    -- Both offsets leave the same remainder, and both are below `m`.
    have hcongr : start + a ≡ start + (r + (m - start % m)) [MOD m] := by
      have hsum : start + (r + (m - start % m)) = r + m * (start / m + 1) := by
        rw [Nat.mul_add]
        omega
      rw [hsum, Nat.ModEq, hmod, Nat.add_mul_mod_self_left, Nat.mod_eq_of_lt hr]
    have hoff : a % m = (r + (m - start % m)) % m := Nat.ModEq.add_left_cancel' start hcongr
    rw [← hoff, Nat.mod_eq_of_lt (by omega)]

/-- **Every pair once**, in any `h * p` numbers in a row. -/
theorem existsUnique_digits {i j : ℕ} (hi : i < h) (hj : j < p) (start : ℕ) :
    ∃! k, (start ≤ k ∧ k < start + h * p) ∧ k / p % h = i ∧ k % p = j := by
  have hp : 0 < p := by omega
  have hr : j + p * i < p * h := by
    calc j + p * i < p + p * i := by omega
      _ = p * (i + 1) := by rw [Nat.mul_add, Nat.mul_one, Nat.add_comm]
      _ ≤ p * h := Nat.mul_le_mul_left p hi
  have hunique := existsUnique_mod hr start
  rw [Nat.mul_comm h p]
  simpa only [digits_iff hp hj] using hunique

end RoundRobin
