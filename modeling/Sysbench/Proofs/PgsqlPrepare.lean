/-
What `pgsql_drv_prepare` makes of a query.

The placeholders become `$1`, `$2` and so on, as `numbered` says, if the text that comes out
has less than `2 ^ 31` bytes.  A query of less than `2 ^ 28` bytes can come to more: almost
every number of that many placeholders has eight digits or nine.  The buffer is then doubled
from `2 ^ 31` bytes to none.
-/
import Sysbench.Proofs.QueryBuffer

namespace Sysbench.QueryBuffer

open List CMemory Decimal Machine SqlLiteral

/-- A query with its placeholders numbered from `k` on. -/
def numbered : Bytes → ℕ → Bytes
  | [], _ => []
  | c :: query, k =>
    if c = 63 then 36 :: decimal k ++ numbered query (k + 1) else c :: numbered query k

/-! ### The text of a number -/

theorem toInt_ofNat_of_lt {k : ℕ} (hk : k < 2 ^ 31) : (UInt32.ofNat k).toInt32.toInt = k := by
  have hnat : (UInt32.ofNat k).toBitVec.toNat = k := by
    rw [UInt32.toNat_toBitVec, UInt32.toNat_ofNat', Nat.mod_eq_of_lt (by omega)]
  show (UInt32.ofNat k).toBitVec.toInt = k
  rw [BitVec.toInt_eq_toNat_of_lt (by omega), hnat]

theorem numberText_of_lt {k : ℕ} (hk : k < 2 ^ 31) : numberText k = 36 :: decimal k := by
  rw [numberText, toInt_ofNat_of_lt hk, signedDecimal, if_neg (by omega), Int.natAbs_natCast]

theorem length_numberText (k : ℕ) : 0 < (numberText k).length ∧ (numberText k).length < 2 ^ 30 := by
  have hbound : (UInt32.ofNat k).toInt32.toInt.natAbs < 10 ^ 10 := by
    show (UInt32.ofNat k).toBitVec.toInt.natAbs < _
    rw [BitVec.toInt_eq_toNat_cond]
    split <;> omega
  have hlen := length_signedDecimal_le (by decide) hbound
  rw [numberText, length_cons]
  omega

theorem le_length_decimal {k : ℕ} (hk : 10 ^ 7 ≤ k) : 8 ≤ (decimal k).length := by
  have hpow : k < 10 ^ (Nat.digits 10 k).length := Nat.lt_base_pow_length_digits (by decide)
  have hlen : (decimal k).length = (Nat.digits 10 k).length := by
    rw [decimal, if_neg (by omega), length_map, length_reverse]
  have hlt : 7 < (Nat.digits 10 k).length :=
    (Nat.pow_lt_pow_iff_right (by decide)).mp (hk.trans_lt hpow)
  omega

/-! ### The text of a query -/

theorem expand_eq_numbered (query : Bytes) :
    ∀ {k : ℕ}, k + query.length < 2 ^ 31 → expand pgsqlDrvPrepare query k = numbered query k := by
  induction query with
  | nil =>
    intro k _
    rfl
  | cons c query ih =>
    intro k hk
    rw [length_cons] at hk
    rw [expand, numbered]
    by_cases hc : c = 63
    · subst hc
      have htext : itemText pgsqlDrvPrepare 63 k = numberText k := itemText_text rfl
      rw [if_pos rfl, htext, numberText_of_lt (by omega), nextVcnt, if_neg (by simp),
        ih (by omega)]
    · rw [if_neg hc, itemText_byte hc, nextVcnt, if_pos hc, ih (by omega), singleton_append]

/-- All that the loop needs is that the text stays below `2 ^ 31` bytes. -/
theorem fits_iff (query : Bytes) :
    ∀ {k j : ℕ}, j < 2 ^ 31 →
      (Fits pgsqlDrvPrepare query k j ↔ j + (expand pgsqlDrvPrepare query k).length < 2 ^ 31) := by
  induction query with
  | nil =>
    intro k j hj
    exact ⟨fun _ => hj, fun _ => trivial⟩
  | cons c query ih =>
    intro k j hj
    have hitem : ItemFits pgsqlDrvPrepare c k j
        ↔ j + (itemText pgsqlDrvPrepare c k).length < 2 ^ 31 := by
      by_cases hc : c = 63
      · subst hc
        have hpiece : pgsqlDrvPrepare.piece k = some (.text (numberText k)) := rfl
        have hlen := length_numberText k
        rw [itemFits_piece hpiece, itemText_text hpiece]
        refine ⟨fun hfits => ?_, fun hlt => ⟨?_, fun _ => hlen.2⟩⟩
        · have hmax := hfits.1
          omega
        · omega
      · rw [itemFits_byte hc, itemText_byte hc, length_singleton]
    rw [Fits, expand, length_append, hitem, ← Nat.add_assoc]
    refine ⟨fun h => (ih h.1).mp h.2, fun h => ?_⟩
    have hlt : j + (itemText pgsqlDrvPrepare c k).length < 2 ^ 31 := by omega
    exact ⟨hlt, (ih hlt).mpr h⟩

theorem no_nul_numbered {query : Bytes} (h : 0 ∉ query) (k : ℕ) : 0 ∉ numbered query k := by
  induction query generalizing k with
  | nil => exact not_mem_nil
  | cons c query ih =>
    rw [mem_cons, not_or] at h
    rw [numbered]
    split
    · simp [no_nul_decimal, ih h.2]
    · simp [h.1, ih h.2]

/-! ### The statement -/

/-- `pgsql_drv_prepare` ends and has stored the query with its placeholders numbered, and how many
there are. -/
def Numbers (alloc : ℕ → Bool) (heap : ℕ → UInt8) (commandOk : Bool) (query : Bytes) : Prop :=
  ∃ o stmt, Halts (step alloc heap pgsqlDrvPrepare query) (start 1) o ∧
    (storeStmt commandOk o = .prepared stmt ∨ storeStmt commandOk o = .refused stmt) ∧
    stmt.query = numbered query 1 ∧ stmt.nparams = query.count 63

theorem sizeOk_id : SizeOk id := ⟨fun _ _ => rfl, fun _ _ => le_rfl⟩

/-- What is stored of a text that has been built. -/
theorem storeStmt_built (commandOk : Bool) (buf : Bytes) {n : ℕ} (hn : n < 2 ^ 31) :
    ∃ stmt, (storeStmt commandOk (.built buf (1 + n)) = .prepared stmt ∨
        storeStmt commandOk (.built buf (1 + n)) = .refused stmt) ∧
      stmt.query = cstr buf ∧ stmt.nparams = n := by
  have hcount : (UInt32.ofNat (1 + n) - 1).toInt32.toInt = n := by
    have hsub : UInt32.ofNat (1 + n) - 1 = UInt32.ofNat n := by
      rw [Nat.add_comm, UInt32.ofNat_add]
      exact UInt32.add_sub_cancel _ _
    rw [hsub, toInt_ofNat_of_lt hn]
  simp only [storeStmt, hcount]
  split
  · split
    · exact ⟨_, .inl rfl, rfl, rfl⟩
    · exact ⟨_, .inr rfl, rfl, rfl⟩
  · exact ⟨_, .inl rfl, rfl, rfl⟩

section

variable {query : Bytes} {alloc : ℕ → Bool} {heap : ℕ → UInt8} {commandOk : Bool}

theorem fits_iff_short (hshort : query.length < 2 ^ 28) :
    Fits pgsqlDrvPrepare query 1 0 ↔ (numbered query 1).length < 2 ^ 31 := by
  rw [fits_iff query (by decide), expand_eq_numbered query (by omega), Nat.zero_add]

/-- A longer text is not stored, whatever the allocator does. -/
theorem short_of_numbers (hquery : query ≠ []) (hshort : query.length < 2 ^ 28)
    (h : Numbers alloc heap commandOk query) : (numbered query 1).length < 2 ^ 31 := by
  obtain ⟨o, stmt, hhalts, hstored, -⟩ := h
  rw [← fits_iff_short hshort]
  by_contra hnot
  have hbase := base_start pgsqlDrvPrepare hquery (show 1 + query.length < 2 ^ 32 by omega)
  rcases not_built_of_not_fits sizeOk_id (by omega) hbase hnot hhalts with ⟨f, rfl⟩ | ⟨rfl, -⟩
  · rcases hstored with hstored | hstored <;> cases hstored
  · rcases hstored with hstored | hstored <;> cases hstored

theorem numbers_of_short (hquery : query ≠ []) (hshort : query.length < 2 ^ 28) (hnul : 0 ∉ query)
    (halloc : ∀ n, 0 < n → alloc n = true) (h : (numbered query 1).length < 2 ^ 31) :
    Numbers alloc heap commandOk query := by
  obtain ⟨o, hhalts, hends⟩ := halts_of_fits alloc heap sizeOk_id hquery
    (show 1 + query.length < 2 ^ 32 by omega) ((fits_iff_short hshort).mpr h)
  obtain ⟨buf, rfl, hbuf⟩ := hends.built_of_alloc halloc nofun
  rw [expand_eq_numbered query (by omega)] at hbuf
  have hcount : query.count 63 < 2 ^ 31 := by
    have hle := count_le_length (a := (63 : UInt8)) (l := query)
    omega
  obtain ⟨stmt, hstored, hstmt, hnparams⟩ := storeStmt_built commandOk buf hcount
  refine ⟨_, stmt, hhalts, hstored, ?_, hnparams⟩
  rw [hstmt, cstr_of_take (no_nul_numbered hnul 1) hbuf]

end

/-- **A query is numbered exactly if its text stays below `2 ^ 31` bytes**, for every non-empty
query of less than `2 ^ 28` bytes and every allocator that only refuses to allocate nothing. -/
theorem prepare_numbers_iff {query : Bytes} (hquery : query ≠ []) (hshort : query.length < 2 ^ 28)
    (hnul : 0 ∉ query) {alloc : ℕ → Bool} (halloc : ∀ n, 0 < n → alloc n = true)
    (heap : ℕ → UInt8) (commandOk : Bool) :
    Numbers alloc heap commandOk query ↔ (numbered query 1).length < 2 ^ 31 := by
  constructor
  · exact short_of_numbers hquery hshort
  · exact numbers_of_short hquery hshort hnul halloc

/-- `a=?` becomes `a=$1`. -/
theorem prepare_numbers_one :
    Numbers (fun _ => true) (fun _ => 0) true [97, 61, 63] ∧
      numbered [97, 61, 63] 1 = [97, 61, 36, 49] :=
  ⟨(prepare_numbers_iff (by decide) (by decide) (by decide) (fun _ _ => rfl) _ _).mpr
    (by decide +kernel), by decide +kernel⟩

/-! ### Too many placeholders -/

theorem numbered_replicate_add (a b k : ℕ) :
    numbered (replicate (a + b) 63) k
      = numbered (replicate a 63) k ++ numbered (replicate b 63) (k + a) := by
  induction a generalizing k with
  | zero => simp [numbered]
  | succ a ih =>
    rw [Nat.succ_add, replicate_succ, replicate_succ, numbered, numbered, if_pos rfl,
      if_pos rfl, ih, append_assoc, Nat.add_assoc, Nat.add_comm 1 a]

theorem le_length_numbered_replicate (n : ℕ) :
    ∀ {k : ℕ}, 10 ^ 7 ≤ k → 9 * n ≤ (numbered (replicate n 63) k).length := by
  induction n with
  | zero =>
    intro k _
    exact Nat.zero_le _
  | succ n ih =>
    intro k hk
    have hdigits := le_length_decimal hk
    have hrest := ih (show 10 ^ 7 ≤ k + 1 by omega)
    rw [replicate_succ, numbered, if_pos rfl, length_append, length_cons]
    omega

/-- The text of `2 ^ 28 - 1` placeholders: all numbers from `10 ^ 7` on have eight digits at
least, and a dollar in front. -/
theorem length_numbered_many : 2 ^ 31 ≤ (numbered (replicate (2 ^ 28 - 1) 63) 1).length := by
  have hsplit := numbered_replicate_add (10 ^ 7 - 1) (2 ^ 28 - 10 ^ 7) 1
  rw [show 10 ^ 7 - 1 + (2 ^ 28 - 10 ^ 7) = 2 ^ 28 - 1 from by decide] at hsplit
  have hmany := le_length_numbered_replicate (2 ^ 28 - 10 ^ 7)
    (show 10 ^ 7 ≤ 1 + (10 ^ 7 - 1) by decide)
  rw [hsplit, length_append]
  omega

/-- The query of `2 ^ 28 - 1` placeholders is not numbered. -/
theorem many_placeholders_not_numbered :
    List.replicate (2 ^ 28 - 1) (63 : UInt8) ≠ [] ∧
      (List.replicate (2 ^ 28 - 1) (63 : UInt8)).length < 2 ^ 28 ∧
      ¬Numbers (fun _ => true) (fun _ => 0) true (List.replicate (2 ^ 28 - 1) 63) := by
  have hlen : (List.replicate (2 ^ 28 - 1) (63 : UInt8)).length < 2 ^ 28 := by
    rw [length_replicate]
    decide
  have hne : List.replicate (2 ^ 28 - 1) (63 : UInt8) ≠ [] := by
    decide
  have hmany := length_numbered_many
  refine ⟨hne, hlen, fun hnumbers => ?_⟩
  have hlt := short_of_numbers hne hlen hnumbers
  omega

end Sysbench.QueryBuffer
