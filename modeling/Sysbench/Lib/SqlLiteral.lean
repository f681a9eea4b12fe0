/-
What MySQL takes a literal for.

A literal is NULL, a decimal number with or without a minus, or a string in single quotes.
In a string a quote is written twice or behind a backslash, and a backslash takes the next
byte along: some letters stand for a control character, `\%` and `\_` for themselves with
the backslash, and every other byte for itself.  `Plain` are the strings that can be put
between quotes as they are, and these are the only ones that are read back unchanged;
`escape` makes every string readable.
-/
import Sysbench.Lib.Decimal

namespace SqlLiteral

open List Decimal

inductive Value where
  | null
  | int (i : ℤ)
  | bytes (bs : List UInt8)
  deriving DecidableEq

/-- What a backslash and the byte behind it stand for. -/
def escaped (c : UInt8) : List UInt8 :=
  if c = 48 then [0]
  else if c = 98 then [8]
  else if c = 110 then [10]
  else if c = 114 then [13]
  else if c = 116 then [9]
  else if c = 90 then [26]
  else if c = 37 ∨ c = 95 then [92, c]
  else [c]

/-- A string from behind its opening quote on.  None where it does not end with the text. -/
def quotedRest : List UInt8 → Option (List UInt8)
  | [] => none
  | [b] => if b = 39 then some [] else none
  | b :: c :: rest =>
    if b = 92 then (quotedRest rest).map (escaped c ++ ·)
    else if b = 39 then if c = 39 then (quotedRest rest).map (39 :: ·) else none
    else (quotedRest (c :: rest)).map (b :: ·)

def digits (text : List UInt8) : Option ℕ :=
  if text ≠ [] ∧ text.all (IsDigit ·) then some (decimalValue text) else none

/-- What a text denotes that is a literal as a whole. -/
def value (text : List UInt8) : Option Value :=
  if text = [78, 85, 76, 76] then some .null
  else if text.head? = some 39 then (quotedRest text.tail).map .bytes
  else if text.head? = some 45 then (digits text.tail).map fun n : ℕ => .int (-(n : ℤ))
  else (digits text).map fun n : ℕ => .int (n : ℤ)

/-! ### Strings -/

/-- Strings without a quote, in which a backslash stands only in front of `%` and `_`. -/
inductive Plain : List UInt8 → Prop where
  | nil : Plain []
  | byte {b : UInt8} {bs : List UInt8} : b ≠ 39 → b ≠ 92 → Plain bs → Plain (b :: bs)
  | wildcard {c : UInt8} {bs : List UInt8} : c = 37 ∨ c = 95 → Plain bs → Plain (92 :: c :: bs)

theorem escaped_wildcard {c : UInt8} (h : c = 37 ∨ c = 95) : escaped c = [92, c] := by
  rcases h with rfl | rfl <;> rfl

/-- An escape is shorter than it is written, unless it stands for itself. -/
theorem length_escaped (c : UInt8) :
    (escaped c).length = 1 ∨ escaped c = [92, c] ∧ (c = 37 ∨ c = 95) := by
  unfold escaped
  repeat' split
  all_goals first
    | exact .inl rfl
    | exact .inr ⟨rfl, by assumption⟩

theorem quotedRest_byte {b : UInt8} (hquote : b ≠ 39) (hslash : b ≠ 92) {rest : List UInt8}
    (hrest : rest ≠ []) : quotedRest (b :: rest) = (quotedRest rest).map (b :: ·) := by
  cases rest with
  | nil => exact absurd rfl hrest
  | cons c rest => rw [quotedRest, if_neg hslash, if_neg hquote]

theorem quotedRest_of_plain {bs : List UInt8} (h : Plain bs) :
    quotedRest (bs ++ [39]) = some bs := by
  induction h with
  | nil => rfl
  | byte hquote hslash _ ih =>
    rw [cons_append, quotedRest_byte hquote hslash
      (append_ne_nil_of_right_ne_nil _ (cons_ne_nil _ _)), ih]
    rfl
  | wildcard hc _ ih =>
    rw [cons_append, cons_append, quotedRest, ih, escaped_wildcard hc]
    rfl

/-- A string is at most as long as it is written, and a plain one if it is as long. -/
theorem plain_of_quotedRest {text bs : List UInt8} (h : quotedRest text = some bs) :
    bs.length < text.length ∧ (bs.length + 1 = text.length → text = bs ++ [39] ∧ Plain bs) := by
  induction text using quotedRest.induct generalizing bs with
  | case1 => cases h
  | case2 =>
    cases h
    exact ⟨Nat.zero_lt_one, fun _ => ⟨rfl, .nil⟩⟩
  | case3 b hb =>
    rw [quotedRest, if_neg hb] at h
    cases h
  | case4 c rest ih =>
    rw [quotedRest, if_pos rfl, Option.map_eq_some_iff] at h
    obtain ⟨tail, htail, rfl⟩ := h
    obtain ⟨hlt, heq⟩ := ih htail
    rcases length_escaped c with hshort | ⟨hself, hc⟩
    · simp only [length_append, hshort, length_cons]
      exact ⟨by omega, fun hlen => by omega⟩
    · simp only [hself, length_append, length_cons, length_nil]
      refine ⟨by omega, fun hlen => ?_⟩
      obtain ⟨rfl, hplain⟩ := heq (by omega)
      exact ⟨rfl, .wildcard hc hplain⟩
  | case5 rest _ ih =>
    rw [quotedRest, if_neg (by decide), if_pos rfl, if_pos rfl, Option.map_eq_some_iff] at h
    obtain ⟨tail, htail, rfl⟩ := h
    have hlt := (ih htail).1
    simp only [length_cons]
    exact ⟨by omega, fun hlen => by omega⟩
  | case6 c rest hc _ =>
    rw [quotedRest, if_neg hc] at h
    cases h
  | case7 b c rest hslash hquote ih =>
    rw [quotedRest, if_neg hslash, if_neg hquote, Option.map_eq_some_iff] at h
    obtain ⟨tail, htail, rfl⟩ := h
    obtain ⟨hlt, heq⟩ := ih htail
    simp only [length_cons] at hlt heq ⊢
    refine ⟨by omega, fun hlen => ?_⟩
    obtain ⟨htext, hplain⟩ := heq (by omega)
    exact ⟨by rw [htext]; rfl, .byte hquote hslash hplain⟩

/-- The text of a string between quotes, nothing escaped. -/
def quoted (bs : List UInt8) : List UInt8 := [39] ++ bs ++ [39]

theorem value_quoted (bs : List UInt8) :
    value (quoted bs) = (quotedRest (bs ++ [39])).map .bytes := by
  simp [value, quoted]

/-- Between quotes, exactly the plain strings stand for themselves. -/
theorem value_quoted_eq_iff (bs : List UInt8) :
    value (quoted bs) = some (.bytes bs) ↔ Plain bs := by
  rw [value_quoted]
  refine ⟨fun h => ?_, fun h => ?_⟩
  · obtain ⟨bs', hrest, hbs⟩ := Option.map_eq_some_iff.mp h
    cases hbs
    exact ((plain_of_quotedRest hrest).2 (by rw [length_append]; rfl)).2
  · rw [quotedRest_of_plain h]
    rfl

/-! ### Strings with backslashes -/

/-- The text of a string in which quotes and backslashes are led by a backslash. -/
def escape (bs : List UInt8) : List UInt8 :=
  bs.flatMap fun c => if c = 39 ∨ c = 92 then [92, c] else [c]

/-- A string from behind its opening quote up to the first quote without a backslash, and what
stands behind that.  Only backslashes escape here: the first of two quotes ends the string. -/
def scan : List UInt8 → Option (List UInt8 × List UInt8)
  | [] => none
  | [b] => if b = 39 then some ([], []) else none
  | b :: c :: rest =>
    if b = 92 then (scan rest).map fun s => (escaped c ++ s.1, s.2)
    else if b = 39 then some ([], c :: rest)
    else (scan (c :: rest)).map fun s => (b :: s.1, s.2)

theorem escape_cons (c : UInt8) (bs : List UInt8) :
    escape (c :: bs) = (if c = 39 ∨ c = 92 then [92, c] else [c]) ++ escape bs :=
  flatMap_cons

theorem length_escape_le (bs : List UInt8) : (escape bs).length ≤ 2 * bs.length := by
  induction bs with
  | nil => exact Nat.le_refl 0
  | cons c bs ih =>
    rw [escape_cons, length_append]
    split <;>
      · simp only [length_cons, length_nil]
        omega

theorem escaped_of_special {c : UInt8} (h : c = 39 ∨ c = 92) : escaped c = [c] := by
  rcases h with rfl | rfl <;> rfl

theorem quotedRest_escape (bs : List UInt8) : quotedRest (escape bs ++ [39]) = some bs := by
  induction bs with
  | nil => rfl
  | cons c bs ih =>
    rw [escape_cons, append_assoc]
    by_cases hc : c = 39 ∨ c = 92
    · rw [if_pos hc, cons_append, singleton_append, quotedRest, if_pos rfl, ih,
        escaped_of_special hc]
      rfl
    · rw [not_or] at hc
      rw [if_neg (not_or.mpr hc), singleton_append, quotedRest_byte hc.1 hc.2 (by simp), ih]
      rfl

theorem scan_escape (bs rest : List UInt8) : scan (escape bs ++ 39 :: rest) = some (bs, rest) := by
  induction bs with
  | nil =>
    cases rest with
    | nil => rfl
    | cons c rest => rfl
  | cons c bs ih =>
    rw [escape_cons, append_assoc]
    by_cases hc : c = 39 ∨ c = 92
    · rw [if_pos hc, cons_append, singleton_append, scan, if_pos rfl, ih,
        escaped_of_special hc]
      rfl
    · rw [if_neg hc, singleton_append]
      rw [not_or] at hc
      obtain ⟨b, text, htext⟩ : ∃ b text, escape bs ++ 39 :: rest = b :: text :=
        exists_cons_of_ne_nil (by simp)
      rw [htext] at ih ⊢
      rw [scan, if_neg hc.2, if_neg hc.1, ih]
      rfl

theorem value_quoted_escape (bs : List UInt8) : value (quoted (escape bs)) = some (.bytes bs) := by
  rw [value_quoted, quotedRest_escape]
  rfl

/-! ### Numbers -/

theorem digits_decimal (n : ℕ) : digits (decimal n) = some n := by
  have hall : (decimal n).all (IsDigit ·) := by simpa using isDigit_decimal n
  rw [digits, if_pos ⟨decimal_ne_nil n, hall⟩, decimalValue_decimal]

/-- A number as `%d` and `%lld` print it. -/
def signedDecimal (i : ℤ) : List UInt8 :=
  if i < 0 then 45 :: decimal i.natAbs else decimal i.natAbs

theorem value_decimal (n : ℕ) : value (decimal n) = some (.int n) := by
  have hhead (b : UInt8) (hb : ¬IsDigit b) : (decimal n).head? ≠ some b :=
    fun h => hb (isDigit_decimal n b (mem_of_mem_head? h))
  have hnull : decimal n ≠ [78, 85, 76, 76] := fun h => hhead 78 (by decide) (by rw [h]; rfl)
  rw [value, if_neg hnull, if_neg (hhead 39 (by decide)), if_neg (hhead 45 (by decide)),
    digits_decimal]
  rfl

theorem value_signedDecimal (i : ℤ) : value (signedDecimal i) = some (.int i) := by
  unfold signedDecimal
  split
  · have hminus : value (45 :: decimal i.natAbs)
        = (digits (decimal i.natAbs)).map fun n : ℕ => .int (-(n : ℤ)) := by simp [value]
    rw [hminus, digits_decimal, Option.map_some, Int.ofNat_natAbs_of_nonpos (by omega), neg_neg]
  · rw [value_decimal, Int.natAbs_of_nonneg (by omega)]

theorem length_signedDecimal_le {i : ℤ} {m : ℕ} (hm : 0 < m) (h : i.natAbs < 10 ^ m) :
    (signedDecimal i).length ≤ m + 1 := by
  have hlen := length_decimal_le hm h
  unfold signedDecimal
  split
  · rw [length_cons]
    omega
  · omega

/-! ### Literals -/

/-- A literal for a value. -/
def literal : Value → List UInt8
  | .null => [78, 85, 76, 76]
  | .int i => signedDecimal i
  | .bytes bs => quoted (escape bs)

theorem value_literal (v : Value) : value (literal v) = some v := by
  cases v with
  | null => rfl
  | int i => exact value_signedDecimal i
  | bytes bs => exact value_quoted_escape bs

end SqlLiteral
