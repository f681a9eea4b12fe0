/-
Numbers written in decimal, as bytes.

`decimal` is what `%d` and `%lu` print of a natural number, and `decimalValue` reads a run of
digits; reading what was printed gives the number back.
-/
import Mathlib.Data.Nat.Digits.Lemmas

namespace Decimal

open List

/-- `%d` and `%lu` of a natural number. -/
def decimal (k : ℕ) : List UInt8 :=
  if k = 0 then [48] else (Nat.digits 10 k).reverse.map fun d => UInt8.ofNat (48 + d)

def IsDigit (b : UInt8) : Prop := 48 ≤ b ∧ b ≤ 57

instance (b : UInt8) : Decidable (IsDigit b) := inferInstanceAs (Decidable (_ ∧ _))

/-- The number that a run of digits stands for. -/
def decimalValue (text : List UInt8) : ℕ := text.foldl (fun n b => 10 * n + (b.toNat - 48)) 0

theorem toNat_digit (k : ℕ) : (UInt8.ofNat (48 + k % 10)).toNat = 48 + k % 10 := by
  rw [UInt8.toNat_ofNat']
  omega

theorem decimal_eq (k : ℕ) :
    decimal k = (if k < 10 then [] else decimal (k / 10)) ++ [UInt8.ofNat (48 + k % 10)] := by
  by_cases hk : k = 0
  · subst hk
    rfl
  · have hdigits : Nat.digits 10 k = k % 10 :: Nat.digits 10 (k / 10) :=
      Nat.digits_def' (by decide) (Nat.pos_of_ne_zero hk)
    rw [decimal, if_neg hk, hdigits, reverse_cons, map_append, map_singleton]
    by_cases hlt : k < 10
    · rw [if_pos hlt, Nat.div_eq_of_lt hlt]
      rfl
    · rw [if_neg hlt, decimal, if_neg (by omega)]

theorem decimal_ne_nil (k : ℕ) : decimal k ≠ [] := by
  rw [decimal_eq]
  exact append_ne_nil_of_right_ne_nil _ (cons_ne_nil _ _)

theorem length_decimal_le {m : ℕ} (hm : 0 < m) :
    ∀ {k : ℕ}, k < 10 ^ m → (decimal k).length ≤ m := by
  induction m with
  | zero => exact absurd hm (Nat.lt_irrefl 0)
  | succ m ih =>
    intro k hk
    rw [decimal_eq, length_append, length_singleton]
    by_cases hlt : k < 10
    · rw [if_pos hlt, length_nil]
      omega
    · rw [if_neg hlt]
      have htenth : k / 10 < 10 ^ m := Nat.div_lt_of_lt_mul (by rwa [← Nat.pow_succ'])
      have hpos : 0 < m := by
        rcases Nat.eq_zero_or_pos m with rfl | hpos
        · exact absurd hk hlt
        · exact hpos
      have hrest := ih hpos htenth
      omega

theorem isDigit_decimal (k : ℕ) : ∀ b ∈ decimal k, IsDigit b := by
  induction k using Nat.strong_induction_on with
  | _ k ih =>
    intro b hb
    rw [decimal_eq, mem_append, mem_singleton] at hb
    rcases hb with hb | rfl
    · by_cases hlt : k < 10
      · rw [if_pos hlt] at hb
        cases hb
      · rw [if_neg hlt] at hb
        exact ih (k / 10) (by omega) b hb
    · refine ⟨UInt8.le_iff_toNat_le.mpr ?_, UInt8.le_iff_toNat_le.mpr ?_⟩
      · rw [toNat_digit]
        exact Nat.le_add_right 48 _
      · rw [toNat_digit]
        show 48 + k % 10 ≤ 57
        omega

theorem no_nul_decimal (k : ℕ) : (0 : UInt8) ∉ decimal k :=
  fun hc => absurd (isDigit_decimal k 0 hc).1 (by decide)

theorem decimalValue_concat (text : List UInt8) (b : UInt8) :
    decimalValue (text ++ [b]) = 10 * decimalValue text + (b.toNat - 48) := by
  rw [decimalValue, foldl_append]
  rfl

theorem decimalValue_decimal (k : ℕ) : decimalValue (decimal k) = k := by
  induction k using Nat.strong_induction_on with
  | _ k ih =>
    rw [decimal_eq, decimalValue_concat, toNat_digit]
    by_cases hlt : k < 10
    · rw [if_pos hlt]
      show 10 * 0 + _ = k
      omega
    · rw [if_neg hlt, ih (k / 10) (by omega)]
      omega

theorem decimal_inj {k l : ℕ} (h : decimal k = decimal l) : k = l := by
  rw [← decimalValue_decimal k, h, decimalValue_decimal]

end Decimal
