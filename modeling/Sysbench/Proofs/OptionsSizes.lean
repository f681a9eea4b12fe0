/-
The number that the value of a size option stands for.

`sb_opt_to_size` reads digits, then one character that may be a modifier, and takes no notice
of what follows.  `sizeDenoted` says what the text asks for, as a natural number; the getter
returns it modulo 2^64.
-/
import Mathlib.Data.List.TakeWhile
import Mathlib.Data.Nat.Digits.Lemmas
import Sysbench.Model.Options

namespace Sysbench.Options

open List

/-- The number that digits denote. -/
def number (digits : Text) : ℕ :=
  Nat.ofDigits 10 (digits.reverse.map fun c => c.toNat - 48)

/-- The letters that multiply a number, in their order, each in both cases. -/
def sizeLetters : List (List Char) :=
  [['K', 'k'], ['M', 'm'], ['G', 'g'], ['T', 't']]

/-- What a character behind the digits multiplies by; one that is no such letter makes nothing
of the number. -/
def factor (c : Char) : ℕ :=
  (sizeLetters.findIdx? (c ∈ ·)).elim 0 fun k => 1024 ^ (k + 1)

/-- The size that a value asks for. -/
def sizeDenoted (s : Text) : ℕ :=
  match s.takeWhile Char.isDigit, s.dropWhile Char.isDigit with
  | [], _ => 0
  | digits, [] => number digits
  | digits, c :: _ => number digits * factor c

/-! ### Digits -/

theorem number_cons (c : Char) (digits : Text) :
    number (c :: digits) = (c.toNat - 48) * 10 ^ digits.length + number digits := by
  rw [number, reverse_cons, map_append, Nat.ofDigits_append, length_map,
    length_reverse, map_singleton, Nat.ofDigits_singleton, number]
  ring

theorem isDigit_iff (c : Char) : c.isDigit = true ↔ ¬(c < '0' ∨ c > '9') := by
  rw [Char.isDigit, Bool.and_eq_true, decide_eq_true_eq, decide_eq_true_eq, not_or]
  show _ ↔ ¬c.val < '0'.val ∧ ¬( '9'.val < c.val)
  rw [UInt32.not_lt, UInt32.not_lt]

/-- The loop over the digits: what has been read is multiplied up, modulo 2^64. -/
theorem sizeDigits_append {digits : Text} (hdigits : ∀ c ∈ digits, c.isDigit = true) (seen : Bool)
    (n : ℕ) (t : Text) :
    sizeDigits seen (UInt64.ofNat n) (digits ++ t)
      = sizeDigits (seen || !digits.isEmpty)
          (UInt64.ofNat (n * 10 ^ digits.length + number digits)) t := by
  induction digits generalizing seen n with
  | nil => simp [number]
  | cons c digits ih =>
    have hc := (isDigit_iff c).mp (hdigits c mem_cons_self)
    have hstep : UInt64.ofNat n * 10 + UInt64.ofNat (c.toNat - 48)
        = UInt64.ofNat (n * 10 + (c.toNat - 48)) := by
      rw [UInt64.ofNat_add, UInt64.ofNat_mul]
      rfl
    have hvalue : (n * 10 + (c.toNat - 48)) * 10 ^ digits.length + number digits
        = n * 10 ^ (c :: digits).length + number (c :: digits) := by
      rw [number_cons, length_cons]
      ring
    rw [cons_append, sizeDigits, if_neg hc, hstep,
      ih (fun d hd => hdigits d (mem_cons_of_mem _ hd)), hvalue]
    simp

theorem sizeDigits_end {c : Char} (hc : c.isDigit = false) (seen : Bool) (res : UInt64) (t : Text) :
    sizeDigits seen res (c :: t) = (res, if seen then some c else none) := by
  have hend : c < '0' ∨ c > '9' := by
    by_contra hdigit
    rw [(isDigit_iff c).mpr hdigit] at hc
    cases hc
  rw [sizeDigits, if_pos hend]

/-! ### Modifiers -/

/-- A character turns into a capital letter if it is that letter or the small one. -/
theorem toUpper_eq_iff (upper lower : Char) (hcase : lower.toNat = upper.toNat + 32)
    (hupper : 65 ≤ upper.toNat ∧ upper.toNat ≤ 90) (c : Char) :
    c.toUpper = upper ↔ c = upper ∨ c = lower := by
  have hchar (a b : Char) : a = b ↔ a.toNat = b.toNat :=
    ⟨congrArg Char.toNat, fun h => Char.ext (UInt32.toNat_inj.mp h)⟩
  rw [hchar, hchar c upper, hchar c lower]
  delta Char.toUpper
  split
  · rename_i hsmall
    rw [UInt32.le_iff_toNat_le, UInt32.le_iff_toNat_le] at hsmall
    have hnat : (c.val + ('A'.val - 'a'.val)).toNat = c.toNat - 32 := by
      simp at hsmall ⊢
      omega
    rw [← Char.toNat_val, hnat]
    simp at hsmall
    omega
  · rename_i hother
    rw [UInt32.le_iff_toNat_le, UInt32.le_iff_toNat_le] at hother
    simp at hother
    omega

theorem factor_of_letter {k : ℕ} {letters : List Char} (hk : sizeLetters[k]? = some letters)
    {c : Char} (hc : c ∈ letters) : factor c = 1024 ^ (k + 1) := by
  have hlt : k < 4 := (List.getElem?_eq_some_iff.mp hk).1
  -- Four letters, two cases each.
  have hall : ∀ k < 4, ((sizeLetters[k]?).getD []).all (factor · = 1024 ^ (k + 1)) = true := by
    decide
  have hletters := hall k hlt
  rw [hk] at hletters
  exact of_decide_eq_true (all_eq_true.mp hletters c hc)

theorem factor_of_other {c : Char} (hc : ∀ letters ∈ sizeLetters, c ∉ letters) :
    factor c = 0 := by
  have hnone : sizeLetters.findIdx? (c ∈ ·) = none :=
    findIdx?_eq_none_iff.mpr fun letters hl => decide_eq_false (hc letters hl)
  rw [factor, hnone]
  rfl

/-- The table search of the getter, and the loop that multiplies. -/
theorem sizemods_factor (c : Char) :
    (if c.toUpper ∈ sizemods then 1024 ^ (sizemods.idxOf c.toUpper + 1) else 0) = factor c := by
  by_cases hother : ∀ letters ∈ sizeLetters, c ∉ letters
  · have hK := toUpper_eq_iff 'K' 'k' rfl (by decide) c
    have hM := toUpper_eq_iff 'M' 'm' rfl (by decide) c
    have hG := toUpper_eq_iff 'G' 'g' rfl (by decide) c
    have hT := toUpper_eq_iff 'T' 't' rfl (by decide) c
    have hnot : c.toUpper ∉ sizemods := by
      simp [sizeLetters] at hother
      simp [sizemods, hK, hM, hG, hT, hother]
    rw [if_neg hnot, factor_of_other hother]
  · push Not at hother
    obtain ⟨letters, hletters, hc⟩ := hother
    have hall : (sizeLetters.all fun letters => letters.all fun c =>
        (if c.toUpper ∈ sizemods then 1024 ^ (sizemods.idxOf c.toUpper + 1) else 0) = factor c)
          = true := by
      decide
    exact of_decide_eq_true (all_eq_true.mp (all_eq_true.mp hall letters hletters) c hc)

/-! ### The getter -/

theorem ofNat_pow (a k : ℕ) : UInt64.ofNat (a ^ k) = UInt64.ofNat a ^ k := by
  induction k with
  | zero => rfl
  | succ k ih => rw [Nat.pow_succ, UInt64.ofNat_mul, ih, UInt64.pow_succ]

theorem sbOptToSize_digits {digits : Text} (hdigits : ∀ c ∈ digits, c.isDigit = true)
    (vs : List Text) : sbOptToSize (digits :: vs) = UInt64.ofNat (number digits) := by
  have hscan : sizeDigits false 0 (digits ++ []) = _ := sizeDigits_append hdigits false 0 []
  rw [append_nil, Nat.zero_mul, Nat.zero_add] at hscan
  rw [sbOptToSize, hscan]
  rfl

theorem sbOptToSize_character {digits : Text} (hdigits : ∀ c ∈ digits, c.isDigit = true)
    {c : Char} (hc : c.isDigit = false) (t : Text) (vs : List Text) :
    sbOptToSize ((digits ++ c :: t) :: vs)
      = UInt64.ofNat (if digits = [] then 0 else number digits * factor c) := by
  have hscan : sizeDigits false 0 (digits ++ c :: t) = _ :=
    sizeDigits_append hdigits false 0 (c :: t)
  rw [Nat.zero_mul, Nat.zero_add, sizeDigits_end hc] at hscan
  rw [sbOptToSize, hscan]
  cases digits with
  | nil => rfl
  | cons d digits =>
    rw [if_neg (cons_ne_nil d digits), ← sizemods_factor]
    show (if c.toUpper ∈ sizemods then _ else (0 : UInt64)) = _
    by_cases hmem : c.toUpper ∈ sizemods
    · rw [if_pos hmem, if_pos hmem, UInt64.ofNat_mul, ofNat_pow]
      rfl
    · rw [if_neg hmem, if_neg hmem]
      rfl

theorem sbOptToSize_eq (s : Text) (vs : List Text) :
    sbOptToSize (s :: vs) = UInt64.ofNat (sizeDenoted s) := by
  have hdigits : ∀ c ∈ s.takeWhile Char.isDigit, c.isDigit = true := fun c hc =>
    mem_takeWhile_imp hc
  have hsplit : s.takeWhile Char.isDigit ++ s.dropWhile Char.isDigit = s :=
    takeWhile_append_dropWhile
  cases hend : s.dropWhile Char.isDigit with
  | nil =>
    rw [hend, append_nil] at hsplit
    rw [← hsplit, sbOptToSize_digits hdigits, hsplit, sizeDenoted, hend, hsplit]
    cases s with
    | nil | cons d s => rfl
  | cons c t =>
    have hc : c.isDigit = false := by
      have hhead := head_dropWhile_not Char.isDigit (l := s) (by simp [hend])
      simpa [hend] using hhead
    rw [hend] at hsplit
    have hread := sbOptToSize_character hdigits hc t vs
    rw [hsplit] at hread
    rw [hread, sizeDenoted, hend]
    cases s.takeWhile Char.isDigit with
    | nil | cons d digits => rfl

/-- **Sizes.**  The getter returns 0 for a value that does not start with a digit, the number for
one of digits only, the number times a power of 1024 where a modifier follows the digits, and 0
where anything else does, all modulo 2^64. -/
theorem sbOptToSize_by_cases (s : Text) (vs : List Text) :
    ((∀ c, s.head? = some c → c.isDigit = false) → sbOptToSize (s :: vs) = 0) ∧
      ((∀ c ∈ s, c.isDigit = true) → sbOptToSize (s :: vs) = UInt64.ofNat (number s)) ∧
      ∀ digits c t, s = digits ++ c :: t → digits ≠ [] → (∀ d ∈ digits, d.isDigit = true) →
        c.isDigit = false →
          (∀ k letters, sizeLetters[k]? = some letters → c ∈ letters →
            sbOptToSize (s :: vs) = UInt64.ofNat (number digits * 1024 ^ (k + 1))) ∧
          ((∀ letters ∈ sizeLetters, c ∉ letters) → sbOptToSize (s :: vs) = 0) := by
  refine ⟨?_, fun hdigits => sbOptToSize_digits hdigits vs, ?_⟩
  · intro hfirst
    cases s with
    | nil => rfl
    | cons c t =>
      have hnone : ∀ d ∈ ([] : Text), d.isDigit = true := nofun
      exact sbOptToSize_character hnone (hfirst c rfl) t vs
  · intro digits c t hs hne hdigits hc
    have hread := sbOptToSize_character hdigits hc t vs
    rw [← hs, if_neg hne] at hread
    constructor
    · intro k letters hk hletter
      rw [hread, factor_of_letter hk hletter]
    · intro hother
      rw [hread, factor_of_other hother, Nat.mul_zero]
      rfl

theorem sixteen_k_and_an_unknown_modifier :
    sbOptToSize ["16k".toList] = 16384 ∧ sbOptToSize ["16x".toList] = 0 :=
  ⟨((sbOptToSize_by_cases "16k".toList []).2.2 ['1', '6'] 'k' [] rfl (by decide)
      (all_eq_true.mp rfl) (by decide)).1 0 ['K', 'k'] rfl (by decide),
    ((sbOptToSize_by_cases "16x".toList []).2.2 ['1', '6'] 'x' [] rfl (by decide)
      (all_eq_true.mp rfl) (by decide)).2 (by decide)⟩

end Sysbench.Options
