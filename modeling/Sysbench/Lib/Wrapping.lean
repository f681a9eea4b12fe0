/-
Counters that wrap.

A fixed-width counter shows the number of events it has counted with whole
multiples of 2^w dropped.  `Dropped w x u` says `x` is such a remnant of `u`.  The
relation composes with addition, so an account that is kept in several wrapping
counters can be added up as if they did not wrap, and it is an equality again as
soon as the true number fits the width.
-/
import Mathlib.Algebra.BigOperators.Fin
import Mathlib.Data.UInt

namespace Wrapping

open Function

/-- `x` is `u` with some multiple of 2^w dropped. -/
def Dropped (w x u : ℕ) : Prop := ∃ k, u = x + 2 ^ w * k

theorem Dropped.refl (w x : ℕ) : Dropped w x x := ⟨0, by simp⟩

theorem Dropped.trans {w x u v : ℕ} (h : Dropped w x u) (h' : Dropped w u v) :
    Dropped w x v := by
  obtain ⟨k, rfl⟩ := h
  obtain ⟨l, rfl⟩ := h'
  exact ⟨k + l, by rw [Nat.mul_add, Nat.add_assoc]⟩

theorem Dropped.add {w x u y v : ℕ} (h : Dropped w x u) (h' : Dropped w y v) :
    Dropped w (x + y) (u + v) := by
  obtain ⟨k, rfl⟩ := h
  obtain ⟨l, rfl⟩ := h'
  exact ⟨k + l, by rw [Nat.mul_add]; omega⟩

theorem Dropped.add_right {w x u : ℕ} (h : Dropped w x u) (c : ℕ) :
    Dropped w (x + c) (u + c) :=
  h.add (Dropped.refl w c)

theorem Dropped.mod_eq {w x u : ℕ} (h : Dropped w x u) : x % 2 ^ w = u % 2 ^ w := by
  obtain ⟨k, rfl⟩ := h
  rw [Nat.add_mul_mod_self_left]

theorem Dropped.eq_of_lt {w x u : ℕ} (h : Dropped w x u) (hu : u < 2 ^ w) : x = u := by
  obtain ⟨k, rfl⟩ := h
  rcases Nat.eq_zero_or_pos k with rfl | hk
  · rw [Nat.mul_zero, Nat.add_zero]
  · have := Nat.mul_le_mul_left (2 ^ w) hk
    omega

theorem dropped_uint64_add (a b : UInt64) :
    Dropped 64 (a + b).toNat (a.toNat + b.toNat) := by
  refine ⟨(a.toNat + b.toNat) / 2 ^ 64, ?_⟩
  rw [UInt64.toNat_add, Nat.mod_add_div]

/-- Of the first `k` tickets of a counter of width `w`, how many show a number below `n`. -/
def ticketsBelow (w n k : ℕ) : ℕ := k / 2 ^ w * n + min n (k % 2 ^ w)

/-- The next ticket counts if it shows a number below `n`. -/
theorem ticketsBelow_succ {w n : ℕ} (hn : n < 2 ^ w) (k : ℕ) :
    ticketsBelow w n (k + 1) = ticketsBelow w n k + if k % 2 ^ w < n then 1 else 0 := by
  have hpos : 0 < 2 ^ w := Nat.two_pow_pos w
  obtain ⟨q, r, hr, rfl⟩ : ∃ q r, r < 2 ^ w ∧ k = 2 ^ w * q + r :=
    ⟨k / 2 ^ w, k % 2 ^ w, Nat.mod_lt k hpos, (Nat.div_add_mod k (2 ^ w)).symm⟩
  unfold ticketsBelow
  rw [Nat.add_assoc, Nat.mul_add_div hpos, Nat.mul_add_div hpos, Nat.mul_add_mod, Nat.mul_add_mod,
    Nat.div_eq_of_lt hr, Nat.mod_eq_of_lt hr]
  simp only [Nat.add_zero]
  rcases Nat.lt_or_eq_of_le (show r + 1 ≤ 2 ^ w from hr) with hnext | hlast
  · rw [Nat.div_eq_of_lt hnext, Nat.mod_eq_of_lt hnext, Nat.add_zero]
    split <;> omega
  · -- The counter goes round: of a full turn, `n` tickets count.
    rw [hlast, Nat.div_self hpos, Nat.mod_self, if_neg (by omega), Nat.add_mul]
    omega

theorem ticketsBelow_of_le {w n k : ℕ} (hn : n < 2 ^ w) (hk : k ≤ 2 ^ w) :
    ticketsBelow w n k = min n k := by
  unfold ticketsBelow
  rcases Nat.lt_or_eq_of_le hk with hlt | rfl
  · rw [Nat.div_eq_of_lt hlt, Nat.mod_eq_of_lt hlt, Nat.zero_mul, Nat.zero_add]
  · rw [Nat.div_self (Nat.two_pow_pos w), Nat.mod_self]
    omega

theorem sum_update {ι : Type} [Fintype ι] [DecidableEq ι] (f : ι → ℕ) (a : ι) (v : ℕ) :
    ∑ i, update f a v i + f a = ∑ i, f i + v := by
  rw [← Finset.add_sum_erase _ f (Finset.mem_univ a),
    ← Finset.add_sum_erase _ (update f a v) (Finset.mem_univ a), update_self]
  have hrest : ∑ i ∈ Finset.univ.erase a, update f a v i
      = ∑ i ∈ Finset.univ.erase a, f i := by
    refine Finset.sum_congr rfl fun i hi => ?_
    rw [update_of_ne (Finset.mem_erase.mp hi).1]
  omega

end Wrapping
