/-
Turns of several parties.

Where a turn of one party leaves the others alone, the state of a party behind a list of turns
depends on the number of its own turns only: `foldl_count` is the rule for such systems.

An infinite schedule says whose turn it is at every moment, and it is fair if everybody's
turn comes again and again.  Among finitely many, everybody then has had any number of turns
after some time: whoever needs a bounded number of turns gets done, and `Fair.exists_turns` is
the moment at which all are.
-/
import Mathlib.Data.Set.Finite.Lattice

namespace Schedule

open List

variable {S E : Type}

/-- `P e k` holds of a state if party `e` has had `k` turns: it holds at the start, a party's own
turn counts one on, and the turns of the others do not matter. -/
theorem foldl_count [DecidableEq E] {step : S → E → S} {P : E → ℕ → S → Prop} {s : S}
    (hstart : ∀ e, P e 0 s) (hown : ∀ s e k, P e k s → P e (k + 1) (step s e))
    (hother : ∀ s e e' k, e ≠ e' → P e k s → P e k (step s e')) (es : List E) (e : E) :
    P e (es.count e) (es.foldl step s) := by
  induction es using reverseRecOn with
  | nil => exact hstart e
  | append_singleton es e' ih =>
    rw [foldl_append, count_append]
    by_cases he : e = e'
    · subst he
      rw [count_singleton_self]
      exact hown _ e _ ih
    · have hnone : [e'].count e = 0 := count_eq_zero.mpr fun hc => he (mem_singleton.mp hc)
      rw [hnone]
      exact hother _ e e' _ he ih

/-- Everybody's turn comes again. -/
def Fair (σ : ℕ → E) : Prop :=
  ∀ e n, ∃ m, n ≤ m ∧ σ m = e

/-- The first turns of a schedule -/
def turns (σ : ℕ → E) (n : ℕ) : List E :=
  (List.range n).map σ

theorem turns_succ (σ : ℕ → E) (n : ℕ) : turns σ (n + 1) = turns σ n ++ [σ n] := by
  simp [turns, range_succ]

section Count

variable [DecidableEq E] {σ : ℕ → E}

theorem count_turns_mono (e : E) {n m : ℕ} (h : n ≤ m) :
    (turns σ n).count e ≤ (turns σ m).count e := by
  induction h with
  | refl => exact Nat.le_refl _
  | step _ ih =>
    rw [turns_succ, count_append]
    exact Nat.le_add_right_of_le ih

theorem Fair.exists_count (h : Fair σ) (e : E) (k : ℕ) : ∃ n, k ≤ (turns σ n).count e := by
  induction k with
  | zero => exact ⟨0, Nat.zero_le _⟩
  | succ k ih =>
    obtain ⟨n, hn⟩ := ih
    obtain ⟨m, hm, hturn⟩ := h e n
    have hmono : (turns σ n).count e ≤ (turns σ m).count e := count_turns_mono e hm
    refine ⟨m + 1, ?_⟩
    rw [turns_succ, count_append, hturn, count_singleton_self]
    omega

/-- Among finitely many, everybody gets the number of turns they need. -/
theorem Fair.exists_turns [Finite E] (h : Fair σ) (needed : E → ℕ) :
    ∃ n, ∀ e, needed e ≤ (turns σ n).count e := by
  choose moment hmoment using fun e => h.exists_count e (needed e)
  obtain ⟨n, hn⟩ := (Set.finite_range moment).bddAbove
  refine ⟨n, fun e => ?_⟩
  have hle : moment e ≤ n := hn ⟨e, rfl⟩
  exact (hmoment e).trans (count_turns_mono e hle)

end Count

/-- One after the other -/
def inTurn {k : ℕ} (hk : 0 < k) (n : ℕ) : Fin k :=
  ⟨n % k, Nat.mod_lt n hk⟩

theorem fair_inTurn {k : ℕ} (hk : 0 < k) : Fair (inTurn hk) := by
  intro e n
  refine ⟨n * k + e, ?_, ?_⟩
  · have hle : n * 1 ≤ n * k := Nat.mul_le_mul_left n hk
    omega
  · apply Fin.ext
    show (n * k + e) % k = e
    rw [Nat.mul_add_mod_self_right, Nat.mod_eq_of_lt e.isLt]

end Schedule
