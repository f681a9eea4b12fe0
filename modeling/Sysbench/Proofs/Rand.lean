/-
The unique sequence generator never repeats itself within 2^32 calls.

`rand_unique_permute` is folded squaring modulo a prime that is 3 modulo 4, plus
five fixed points, so `Lib/SquarePermutation.lean` makes it injective, and on a
finite type that is enough for it to be a permutation.  `sb_rand_unique` composes
two of them with a wrapping addition and an exclusive or, both bijective.

What threads add is the index.  Calls are numbered by their fetch-and-adds, and
`Numbered` says call `m` fetched the starting index plus `m`, whatever the
interleaving; two calls of a window of 2^32 therefore fetched different indices.
-/
import Mathlib.NumberTheory.LucasPrimality
import Mathlib.Tactic.NormNum.Prime
import Mathlib.Tactic.ReduceModChar
import Sysbench.Lib.SquarePermutation
import Sysbench.Model.Rand

namespace Sysbench

/-! ### The prime -/

/-- Lucas's test on the factorisation 2 · 5 · 19 · 22605091 of `uniquePrime - 1`. -/
theorem uniquePrime_prime : Nat.Prime 4294967291 := by
  refine lucas_primality _ 2 (by reduce_mod_char) ?_
  intro q hq hdvd
  have hfactors : (4294967291 - 1 : ℕ) = 2 * 5 * (19 * 22605091) := by norm_num
  rw [hfactors, hq.dvd_mul, hq.dvd_mul, hq.dvd_mul] at hdvd
  rcases hdvd with (h | h) | (h | h)
  all_goals
    rw [(Nat.prime_dvd_prime_iff_eq hq (by norm_num)).mp h]
    reduce_mod_char
    decide

/-! ### The permutation -/

/-- Below the prime, `rand_unique_permute` is folded squaring. -/
theorem toNat_randUniquePermute (x : UInt32) (hx : x.toNat < 4294967291) :
    (randUniquePermute x).toNat = SquarePermutation.fold 4294967291 x.toNat := by
  have hprod : x.toNat * x.toNat < 2 ^ 64 := by
    have := Nat.mul_lt_mul'' hx hx
    omega
  have hres : (x.toUInt64 * x.toUInt64 % uniquePrime.toUInt64).toUInt32.toNat
      = x.toNat * x.toNat % 4294967291 := by
    have hlt : x.toNat * x.toNat % 4294967291 < 2 ^ 32 :=
      Nat.lt_trans (Nat.mod_lt _ (by norm_num)) (by norm_num)
    rw [UInt64.toNat_toUInt32, UInt64.toNat_mod, UInt64.toNat_mul, UInt32.toNat_toUInt64,
      UInt32.toNat_toUInt64, Nat.mod_eq_of_lt hprod]
    exact Nat.mod_eq_of_lt hlt
  have hltp : x.toNat * x.toNat % 4294967291 < 4294967291 := Nat.mod_lt _ (by norm_num)
  unfold randUniquePermute SquarePermutation.fold
  rw [if_neg (by rw [ge_iff_le]; exact Nat.not_le.mpr hx)]
  have hhalf : x ≤ uniquePrime / 2 ↔ x.toNat ≤ 4294967291 / 2 := UInt32.le_iff_toNat_le
  by_cases hlow : x.toNat ≤ 4294967291 / 2
  · rw [if_pos hlow, if_pos (hhalf.mpr hlow), hres]
  · rw [if_neg hlow, if_neg (fun hc => hlow (hhalf.mp hc))]
    rw [UInt32.toNat_sub_of_le _ _ (by rw [UInt32.le_iff_toNat_le, hres]; exact hltp.le), hres]
    rfl

theorem randUniquePermute_of_ge (x : UInt32) (hx : 4294967291 ≤ x.toNat) :
    randUniquePermute x = x := by
  unfold randUniquePermute
  rw [if_pos]
  exact UInt32.le_iff_toNat_le.mpr hx

/-- The residues are mapped among themselves, so they never meet the five fixed points. -/
theorem randUniquePermute_lt (x : UInt32) :
    (randUniquePermute x).toNat < 4294967291 ↔ x.toNat < 4294967291 := by
  rcases Nat.lt_or_ge x.toNat 4294967291 with hx | hx
  · rw [toNat_randUniquePermute x hx]
    exact ⟨fun _ => hx, fun _ => SquarePermutation.fold_lt uniquePrime_prime hx⟩
  · rw [randUniquePermute_of_ge x hx]

theorem randUniquePermute_injective : Function.Injective randUniquePermute := by
  intro x y h
  rcases Nat.lt_or_ge x.toNat 4294967291 with hx | hx
  · have hy : y.toNat < 4294967291 := by
      rw [← randUniquePermute_lt y, ← h, randUniquePermute_lt x]
      exact hx
    have hfold := congrArg UInt32.toNat h
    rw [toNat_randUniquePermute x hx, toNat_randUniquePermute y hy] at hfold
    exact UInt32.toNat_inj.mp
      (SquarePermutation.fold_injOn uniquePrime_prime (by norm_num) hx hy hfold)
  · have hy : 4294967291 ≤ y.toNat := by
      by_contra hc
      have := (randUniquePermute_lt y).mpr (Nat.lt_of_not_le hc)
      rw [← h, randUniquePermute_lt x] at this
      omega
    rwa [randUniquePermute_of_ge x hx, randUniquePermute_of_ge y hy] at h

theorem sbRandUniqueValue_injective (offset : UInt32) :
    Function.Injective (sbRandUniqueValue offset) := by
  intro x y h
  have hxor := randUniquePermute_injective h
  have hadd : randUniquePermute x + offset = randUniquePermute y + offset := by
    have := congrArg (· ^^^ (0x5bf03635 : UInt32)) hxor
    simpa [UInt32.xor_assoc] using this
  exact randUniquePermute_injective (UInt32.add_left_inj _ |>.mp hadd)

/-! ### Numbering the calls

The shared index is the starting one advanced once for every call, so the number a
call carries determines the index it fetched.  The offset is never written.
-/

section Calls

variable {T : Type} (seed : UniqueSeed)

/-- The index call `m` fetches. -/
def callIndex (m : ℕ) : UInt32 := seed.randUniqueIndex + UInt32.ofNat m

/-- Every call, in progress or returned, works on the index its number determines. -/
structure Numbered (s : UniqueState T) : Prop where
  index : s.randUniqueIndex = callIndex seed s.calls
  offset : s.randUniqueOffset = seed.randUniqueOffset
  inCall : ∀ t m i, s.inCall t = some (m, i) → i = callIndex seed m
  returned : ∀ m v, (m, v) ∈ s.returned →
    v = sbRandUniqueValue seed.randUniqueOffset (callIndex seed m)

theorem callIndex_succ (m : ℕ) : callIndex seed (m + 1) = callIndex seed m + 1 := by
  unfold callIndex
  rw [UInt32.ofNat_add, ← UInt32.add_assoc]
  rfl

theorem numbered_init : Numbered seed (uniqueInit T seed) where
  index := by simp [uniqueInit, callIndex]
  offset := rfl
  inCall := by simp [uniqueInit]
  returned := by simp [uniqueInit]

theorem numbered_step [DecidableEq T] {s : UniqueState T} (h : Numbered seed s)
    (e : UniqueEvent T) :
    Numbered seed (uniqueStep s e) := by
  cases e with
  | fetch t =>
    cases hin : s.inCall t with
    | some call => simpa only [uniqueStep, hin] using h
    | none =>
      simp only [uniqueStep, hin]
      refine ⟨?_, h.offset, ?_, h.returned⟩
      · show s.randUniqueIndex + 1 = callIndex seed (s.calls + 1)
        rw [callIndex_succ, h.index]
      · intro t' m i hcall
        by_cases htt : t' = t
        · subst htt
          simp only [Function.update_self, Option.some.injEq, Prod.mk.injEq] at hcall
          obtain ⟨rfl, rfl⟩ := hcall
          exact h.index
        · simp only [Function.update_of_ne htt] at hcall
          exact h.inCall t' m i hcall
  | finish t =>
    cases hin : s.inCall t with
    | none => simpa only [uniqueStep, hin] using h
    | some call =>
      obtain ⟨m, i⟩ := call
      simp only [uniqueStep, hin]
      refine ⟨h.index, h.offset, ?_, ?_⟩
      · intro t' m' i' hcall
        by_cases htt : t' = t
        · subst htt
          simp at hcall
        · simp only [Function.update_of_ne htt] at hcall
          exact h.inCall t' m' i' hcall
      · intro m' v hmem
        rcases List.mem_cons.mp hmem with heq | hmem
        · obtain ⟨rfl, rfl⟩ := Prod.mk.inj heq
          rw [h.offset, h.inCall t m' i hin]
        · exact h.returned m' v hmem

theorem numbered_run [DecidableEq T] (sched : List (UniqueEvent T)) :
    Numbered seed (uniqueRun seed sched) := by
  have key : ∀ (l : List (UniqueEvent T)) (s : UniqueState T), Numbered seed s →
      Numbered seed (l.foldl uniqueStep s) := by
    intro l
    induction l with
    | nil => intro s hs; exact hs
    | cons e rest ih => intro s hs; exact ih _ (numbered_step seed hs e)
  exact key sched _ (numbered_init seed)

end Calls

/-! ### A window of 2^32 calls -/

instance finiteUInt32 : Finite UInt32 :=
  Finite.of_injective UInt32.toFin fun _ _ h => UInt32.toFin_inj.mp h

/-- Two calls less than 2^32 apart fetch different indices. -/
theorem callIndex_inj (seed : UniqueSeed) {k m n : ℕ} (hm : k ≤ m) (hm' : m < k + 2 ^ 32)
    (hn : k ≤ n) (hn' : n < k + 2 ^ 32) (h : callIndex seed m = callIndex seed n) : m = n := by
  have hmod := congrArg UInt32.toNat ((UInt32.add_right_inj _).mp h)
  rw [UInt32.toNat_ofNat', UInt32.toNat_ofNat'] at hmod
  omega

theorem callIndex_surj (seed : UniqueSeed) (k : ℕ) (i : UInt32) :
    ∃ m, k ≤ m ∧ m < k + 2 ^ 32 ∧ callIndex seed m = i := by
  -- The distance from the first index of the window, wrapped, is how far in the call is.
  refine ⟨k + (i - callIndex seed k).toNat, Nat.le_add_right _ _, ?_, ?_⟩
  · have := (i - callIndex seed k).toNat_lt
    omega
  · have hsum : callIndex seed (k + (i - callIndex seed k).toNat)
        = callIndex seed k + (i - callIndex seed k) := by
      unfold callIndex
      rw [UInt32.ofNat_add, UInt32.ofNat_toNat, ← UInt32.add_assoc]
    rw [hsum, UInt32.add_comm, UInt32.sub_add_cancel]

/--
**No value is repeated within 2^32 calls.**  `rand_unique_permute` is a permutation of
the 32-bit integers; and for every seed and every interleaving of the threads, two
calls out of any 2^32 consecutive ones return different values, and once all of them
have returned every 32-bit value has been returned by exactly one of them.
-/
theorem sbRandUnique_permutes_window :
    Function.Bijective randUniquePermute ∧
    ∀ (T : Type) [DecidableEq T] (index offset : UInt32) (sched : List (UniqueEvent T)) (k : ℕ),
      let s := uniqueRun (randUniqueSeed index offset) sched
      (∀ m v n w, (m, v) ∈ s.returned → (n, w) ∈ s.returned → k ≤ m → m < k + 2 ^ 32 →
        k ≤ n → n < k + 2 ^ 32 → m ≠ n → v ≠ w) ∧
      ((∀ m, k ≤ m → m < k + 2 ^ 32 → ∃ v, (m, v) ∈ s.returned) →
        ∀ v, ∃! m, k ≤ m ∧ m < k + 2 ^ 32 ∧ (m, v) ∈ s.returned) := by
  refine ⟨Finite.injective_iff_bijective.mp randUniquePermute_injective, ?_⟩
  intro T _ index offset sched k s
  have hs := numbered_run (randUniqueSeed index offset) sched
  have hdistinct : ∀ m v n w, (m, v) ∈ s.returned → (n, w) ∈ s.returned → k ≤ m →
      m < k + 2 ^ 32 → k ≤ n → n < k + 2 ^ 32 → m ≠ n → v ≠ w := by
    intro m v n w hmv hnw hm hm' hn hn' hne hvw
    rw [hs.returned m v hmv, hs.returned n w hnw] at hvw
    exact hne (callIndex_inj _ hm hm' hn hn' (sbRandUniqueValue_injective _ hvw))
  refine ⟨hdistinct, ?_⟩
  intro hall v
  obtain ⟨i, hi⟩ := (Finite.injective_iff_surjective.mp
    (sbRandUniqueValue_injective (randUniqueSeed index offset).randUniqueOffset)) v
  obtain ⟨m, hm, hm', hmi⟩ := callIndex_surj (randUniqueSeed index offset) k i
  obtain ⟨w, hw⟩ := hall m hm hm'
  have hwv : w = v := by rw [hs.returned m w hw, hmi, hi]
  subst hwv
  refine ⟨m, ⟨hm, hm', hw⟩, ?_⟩
  rintro n ⟨hn, hn', hnw⟩
  by_contra hne
  exact hdistinct n w m w hnw hw hn hn' hm hm' hne rfl

end Sysbench
