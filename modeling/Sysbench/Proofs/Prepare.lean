/-
Parallel `prepare` creates every table once.

Thread `t` of `n` calls `create_table` for the numbers `t + 1`, `t + 1 + n`, `t + 1 + 2 * n` and
so on, so the number of a table gives away who creates it.  What a thread has called is the
beginning of its sequence, whatever the others do and whichever calls fail (`WorkerAt`); if it
returns, nothing of the sequence is missing up to the number of tables.
-/
import Mathlib.Data.Fintype.BigOperators
import Mathlib.Tactic.Ring
import Mathlib.Tactic.NormNum
import Sysbench.Lib.Fairness
import Sysbench.Lib.Schedule
import Sysbench.Model.Prepare

namespace Sysbench.Prepare

open List Function Schedule

variable {threads : ℕ} {outcome : Outcome} {tables : ℕ} {s : PrepareState threads}
  {t tid : Fin threads} {k : ℕ}

/-! ### One thread -/

/-- The table that thread `t` creates after `m` others -/
def tableNumber (t : Fin threads) (m : ℕ) : ℤ :=
  t + 1 + m * threads

/-- The numbers that a thread has called `create_table` with. -/
def PrepareState.madeBy (s : PrepareState threads) (t : Fin threads) : List ℤ :=
  (s.calls.filter fun c => c.1 = t).map Prod.snd

/-- What a worker's place says after `k` turns and `j` calls. -/
def Worker.After (tables : ℕ) (t : Fin threads) (k j : ℕ) : Worker → Prop
  | .starting => k = 0 ∧ j = 0
  | .looping i => k = j + 1 ∧ i = tableNumber t j
  | .returned => (tables : ℤ) < tableNumber t j
  | .failed => True

/-- A thread that has had `k` turns. -/
def WorkerAt (tables : ℕ) (t : Fin threads) (k : ℕ) (s : PrepareState threads) : Prop :=
  ∃ j, s.madeBy t = (List.range j).map (tableNumber t) ∧ (∀ m < j, tableNumber t m ≤ tables) ∧
    (s.workers t).After tables t k j

theorem tableNumber_eq_cast (t : Fin threads) (m : ℕ) :
    tableNumber t m = ((t + m * threads : ℕ) : ℤ) + 1 := by
  simp only [tableNumber]
  push_cast
  ring

theorem tableNumber_mono (t : Fin threads) {m m' : ℕ} (h : m ≤ m') :
    tableNumber t m ≤ tableNumber t m' := by
  have hmul : m * threads ≤ m' * threads := Nat.mul_le_mul_right threads h
  rw [tableNumber_eq_cast, tableNumber_eq_cast]
  omega

theorem one_le_tableNumber (t : Fin threads) (m : ℕ) : 1 ≤ tableNumber t m := by
  rw [tableNumber_eq_cast]
  omega

theorem lt_tableNumber (t : Fin threads) (m : ℕ) : (m : ℤ) < tableNumber t m := by
  have hle : m * 1 ≤ m * threads := Nat.mul_le_mul_left m t.pos
  rw [tableNumber_eq_cast]
  omega

theorem tableNumber_succ (t : Fin threads) (m : ℕ) :
    tableNumber t m + threads = tableNumber t (m + 1) := by
  simp only [tableNumber]
  push_cast
  ring

theorem tableNumber_zero (t : Fin threads) : (t : ℤ) % threads + 1 = tableNumber t 0 := by
  have hlt : (t : ℤ) < threads := by exact_mod_cast t.isLt
  rw [Int.emod_eq_of_lt (by omega) hlt]
  simp [tableNumber]

theorem madeBy_call (s : PrepareState threads) (w : Worker) (i : ℤ) :
    ({ s.set tid w with calls := s.calls ++ [(tid, i)] } : PrepareState threads).madeBy t
      = s.madeBy t ++ if tid = t then [i] else [] := by
  simp only [PrepareState.madeBy, filter_append, map_append]
  by_cases h : tid = t
  · simp [h]
  · simp [h]

theorem WorkerAt.own (h : WorkerAt tables t k s) :
    WorkerAt tables t (k + 1) (prepareTurn outcome tables s t) := by
  obtain ⟨j, hmade, hle, hafter⟩ := h
  unfold prepareTurn
  cases hw : s.workers t with
  | starting =>
    rw [hw] at hafter
    obtain ⟨rfl, rfl⟩ := hafter
    refine ⟨0, hmade, hle, ?_⟩
    simp only [PrepareState.set, update_self]
    split
    · exact ⟨rfl, tableNumber_zero t⟩
    · trivial
  | looping i =>
    rw [hw] at hafter
    obtain ⟨rfl, rfl⟩ := hafter
    by_cases hmore : tableNumber t j ≤ tables
    · simp only [if_pos hmore]
      refine ⟨j + 1, ?_, ?_, ?_⟩
      · rw [madeBy_call, if_pos rfl, hmade, range_succ, map_append]
        rfl
      · intro m hm
        rcases Nat.lt_succ_iff_lt_or_eq.mp hm with hm | rfl
        · exact hle m hm
        · exact hmore
      · simp only [PrepareState.set, update_self]
        split
        · exact ⟨rfl, tableNumber_succ t j⟩
        · trivial
    · simp only [if_neg hmore]
      refine ⟨j, hmade, hle, ?_⟩
      simp only [PrepareState.set, update_self]
      exact not_le.mp hmore
  | returned =>
    rw [hw] at hafter
    refine ⟨j, hmade, hle, ?_⟩
    rw [hw]
    exact hafter
  | failed =>
    refine ⟨j, hmade, hle, ?_⟩
    rw [hw]
    trivial

theorem WorkerAt.other (hne : t ≠ tid) (h : WorkerAt tables t k s) :
    WorkerAt tables t k (prepareTurn outcome tables s tid) := by
  obtain ⟨j, hmade, hle, hafter⟩ := h
  unfold prepareTurn
  cases s.workers tid with
  | starting =>
    refine ⟨j, hmade, hle, ?_⟩
    simpa [PrepareState.set, update_of_ne hne] using hafter
  | looping i =>
    simp only
    split
    · refine ⟨j, ?_, hle, ?_⟩
      · rw [madeBy_call, if_neg hne.symm, append_nil]
        exact hmade
      · simpa [PrepareState.set, update_of_ne hne] using hafter
    · refine ⟨j, hmade, hle, ?_⟩
      simpa [PrepareState.set, update_of_ne hne] using hafter
  | returned | failed => exact ⟨j, hmade, hle, hafter⟩

theorem workerAt_run (outcome : Outcome) (tables : ℕ) (run : List (Fin threads))
    (t : Fin threads) : WorkerAt tables t (run.count t) (prepareRun outcome tables run) := by
  apply foldl_count
  · exact fun t => ⟨0, rfl, fun m hm => absurd hm (Nat.not_lt_zero m), rfl, rfl⟩
  · intro s t k h
    exact h.own
  · intro s t tid k hne h
    exact h.other hne

theorem madeBy_run (outcome : Outcome) (tables : ℕ) (run : List (Fin threads)) (t : Fin threads) :
    ∃ j, (prepareRun outcome tables run).madeBy t = (range j).map (tableNumber t) := by
  obtain ⟨j, hj, -⟩ := workerAt_run outcome tables run t
  exact ⟨j, hj⟩

/-- After so many turns a thread has come to its end. -/
theorem WorkerAt.ended (h : WorkerAt tables t k s) (hk : tables + 2 ≤ k) :
    s.workers t = .returned ∨ s.workers t = .failed := by
  obtain ⟨j, -, hle, hafter⟩ := h
  cases hw : s.workers t with
  | starting =>
    rw [hw] at hafter
    have hzero := hafter.1
    omega
  | looping i =>
    rw [hw] at hafter
    have hcalls := hafter.1
    have hlast := hle tables (by omega)
    exact absurd hlast (not_le.mpr (lt_tableNumber t tables))
  | returned => exact .inl rfl
  | failed => exact .inr rfl

theorem not_failed (hconnect : ∀ tid, outcome.connect tid = true)
    (hcreate : ∀ i, outcome.createTable i = true) (run : List (Fin threads)) :
    ∀ t, (prepareRun outcome tables run).workers t ≠ .failed := by
  apply invariant (P := fun s : PrepareState threads => ∀ t, s.workers t ≠ .failed)
  · intro s tid h t
    unfold prepareTurn
    by_cases ht : t = tid
    · subst ht
      cases hw : s.workers t with
      | starting => simp [PrepareState.set, hconnect]
      | looping i =>
        simp only [hcreate, if_true]
        split <;> simp [PrepareState.set]
      | returned => simp [hw]
      | failed => exact absurd hw (h t)
    · cases s.workers tid with
      | starting => simpa [PrepareState.set, update_of_ne ht] using h t
      | looping i =>
        simp only
        split <;> simpa [PrepareState.set, update_of_ne ht] using h t
      | returned | failed => exact h t
  · intro t
    exact nofun

/-! ### All threads -/

theorem count_calls (calls : List (Fin threads × ℤ)) (i : ℤ) :
    (calls.map Prod.snd).count i
      = ∑ t, ((calls.filter fun c => c.1 = t).map Prod.snd).count i := by
  induction calls with
  | nil => simp
  | cons c calls ih =>
    have hsplit (t : Fin threads) :
        (((c :: calls).filter fun c => c.1 = t).map Prod.snd).count i
          = ((calls.filter fun c => c.1 = t).map Prod.snd).count i
            + if c.1 = t then (if c.2 = i then 1 else 0) else 0 := by
      by_cases h : c.1 = t
      · simp [h, count_cons]
      · simp [h]
    simp only [hsplit]
    rw [map_cons, count_cons, ih, Finset.sum_add_distrib]
    simp

/-- The number of a table says which thread creates it, and when. -/
theorem tableNumber_eq_iff (t : Fin threads) (m x : ℕ) :
    tableNumber t m = x + 1 ↔ (t : ℕ) = x % threads ∧ m = x / threads := by
  have hpos : 0 < threads := t.pos
  rw [tableNumber_eq_cast]
  constructor
  · intro h
    have hx : (t : ℕ) + m * threads = x := by omega
    subst hx
    rw [Nat.add_mul_mod_self_right, Nat.mod_eq_of_lt t.isLt, Nat.add_mul_div_right _ _ hpos,
      Nat.div_eq_of_lt t.isLt, Nat.zero_add]
    exact ⟨rfl, rfl⟩
  · rintro ⟨ht, rfl⟩
    have hx := Nat.mod_add_div' x threads
    omega

theorem count_madeBy {j : ℕ} (h : s.madeBy t = (range j).map (tableNumber t)) (x : ℕ) :
    (s.madeBy t).count (x + 1 : ℤ) = if (t : ℕ) = x % threads ∧ x / threads < j then 1 else 0 := by
  have hinj : Function.Injective (tableNumber t) := by
    intro m m' hm
    have hx := tableNumber_eq_cast t m'
    rw [hx, tableNumber_eq_iff] at hm
    rw [tableNumber_eq_iff] at hx
    exact hm.2.trans hx.2.symm
  have hmem : (x + 1 : ℤ) ∈ (range j).map (tableNumber t) ↔
      (t : ℕ) = x % threads ∧ x / threads < j := by
    rw [mem_map]
    constructor
    · rintro ⟨m, hm, hx⟩
      obtain ⟨ht, rfl⟩ := (tableNumber_eq_iff t m x).mp hx
      exact ⟨ht, mem_range.mp hm⟩
    · rintro ⟨ht, hj⟩
      exact ⟨x / threads, mem_range.mpr hj, (tableNumber_eq_iff t _ x).mpr ⟨ht, rfl⟩⟩
  rw [h, (nodup_range.map hinj).count]
  simp only [hmem]

/-- All calls of `create_table` with a number are those of one thread. -/
theorem count_calls_eq (hthreads : 0 < threads) (x : ℕ)
    (h : ∀ t, ∃ j, s.madeBy t = (range j).map (tableNumber t)) :
    (s.calls.map Prod.snd).count (x + 1 : ℤ)
      = (s.madeBy ⟨x % threads, Nat.mod_lt x hthreads⟩).count (x + 1 : ℤ) := by
  rw [count_calls]
  apply Finset.sum_eq_single
  · intro t _ hne
    obtain ⟨j, hj⟩ := h t
    show (s.madeBy t).count _ = 0
    rw [count_madeBy hj, if_neg]
    rintro ⟨ht, -⟩
    exact hne (Fin.ext ht)
  · intro hnot
    exact absurd (Finset.mem_univ _) hnot

/-- The calls of `create_table` are for every table once and for nothing else. -/
def CoversTables (tables : ℕ) (s : PrepareState threads) : Prop :=
  ∀ i : ℤ, (s.calls.map Prod.snd).count i = if 1 ≤ i ∧ i ≤ tables then 1 else 0

theorem count_calls_of_not_pos (h : ∀ t, ∃ j, s.madeBy t = (range j).map (tableNumber t))
    {i : ℤ} (hi : ¬1 ≤ i) : (s.calls.map Prod.snd).count i = 0 := by
  rw [count_calls]
  apply Finset.sum_eq_zero
  intro t _
  obtain ⟨j, hj⟩ := h t
  show (s.madeBy t).count i = 0
  rw [hj, count_eq_zero, mem_map]
  rintro ⟨m, -, rfl⟩
  exact hi (one_le_tableNumber t m)

/-- No table is created twice, and none that is not asked for, whatever fails. -/
theorem count_calls_le (hthreads : 0 < threads) (outcome : Outcome) (tables : ℕ)
    (run : List (Fin threads)) (i : ℤ) :
    ((prepareRun outcome tables run).calls.map Prod.snd).count i
      ≤ if 1 ≤ i ∧ i ≤ tables then 1 else 0 := by
  have hat := workerAt_run outcome tables run
  have hmade := madeBy_run outcome tables run
  by_cases hi : 1 ≤ i
  · obtain ⟨x, rfl⟩ : ∃ x : ℕ, i = x + 1 := ⟨(i - 1).toNat, by omega⟩
    obtain ⟨j, hj, hle, -⟩ := hat ⟨x % threads, Nat.mod_lt x hthreads⟩
    rw [count_calls_eq hthreads x hmade, count_madeBy hj]
    split
    · rename_i hin
      have hnumber := hle _ hin.2
      rw [(tableNumber_eq_iff _ _ x).mpr ⟨rfl, rfl⟩] at hnumber
      rw [if_pos ⟨hi, hnumber⟩]
    · exact Nat.zero_le _
  · rw [count_calls_of_not_pos hmade hi]
    exact Nat.zero_le _

theorem coversTables_of_returned (hthreads : 0 < threads) {run : List (Fin threads)}
    (h : ∀ t, (prepareRun outcome tables run).workers t = .returned) :
    CoversTables tables (prepareRun outcome tables run) := by
  intro i
  apply Nat.le_antisymm (count_calls_le hthreads outcome tables run i)
  split
  · rename_i hin
    obtain ⟨x, rfl⟩ : ∃ x : ℕ, i = x + 1 := ⟨(i - 1).toNat, by omega⟩
    have hat := workerAt_run outcome tables run
    obtain ⟨j, hj, -, hafter⟩ := hat ⟨x % threads, Nat.mod_lt x hthreads⟩
    rw [h] at hafter
    have hlt : x / threads < j := by
      -- The next number of the thread is beyond the last table, and so is none before it.
      by_contra hge
      have hmono := tableNumber_mono ⟨x % threads, Nat.mod_lt x hthreads⟩ (not_lt.mp hge)
      rw [(tableNumber_eq_iff _ _ x).mpr ⟨rfl, rfl⟩] at hmono
      exact absurd (lt_of_lt_of_le hafter hmono) (not_lt.mpr hin.2)
    rw [count_calls_eq hthreads x (madeBy_run outcome tables run), count_madeBy hj,
      if_pos ⟨rfl, hlt⟩]
  · exact Nat.zero_le _

/-- **Every table is created once.**  All threads execute the command, with the numbers from 0 on;
in a fair interleaving each of them comes to its end; none fails if no call does; and where all
return, the tables are covered. -/
theorem prepare_covers (outcome : Outcome) (threads : ℕ) (hthreads : 0 < threads) (tables : ℕ) :
    commandThreads true threads = List.range threads ∧
      (∀ σ : ℕ → Fin threads, Fair σ → ∃ n, ∀ t,
        (prepareRun outcome tables (turns σ n)).workers t = .returned ∨
          (prepareRun outcome tables (turns σ n)).workers t = .failed) ∧
      ((∀ tid, outcome.connect tid = true) → (∀ i, outcome.createTable i = true) →
        ∀ (run : List (Fin threads)) t, (prepareRun outcome tables run).workers t ≠ .failed) ∧
      ∀ run : List (Fin threads), (∀ t, (prepareRun outcome tables run).workers t = .returned) →
        CoversTables tables (prepareRun outcome tables run) := by
  refine ⟨?_, ?_, fun hconnect hcreate run => not_failed hconnect hcreate run,
    fun run hrun => coversTables_of_returned hthreads hrun⟩
  · unfold commandThreads
    split
    · rfl
    · rename_i hone
      obtain rfl : threads = 1 := by
        simp only [true_and] at hone
        omega
      rfl
  · intro σ hσ
    obtain ⟨n, hn⟩ := hσ.exists_turns fun _ => tables + 2
    refine ⟨n, fun t => ?_⟩
    exact (workerAt_run outcome tables (turns σ n) t).ended (hn t)

/-- Everything goes well. -/
def allReturn : Outcome where
  connect := fun _ => true
  createTable := fun _ => true

theorem three_tables_by_two_threads :
    (prepareRun allReturn 3 [0, 1, 0, 1, 1, 0, 0] : PrepareState 2).calls
        = [((0 : Fin 2), 1), (1, 2), (0, 3)] ∧
      CoversTables 3 (prepareRun allReturn 3 [0, 1, 0, 1, 1, 0, 0] : PrepareState 2) := by
  refine ⟨by decide, ?_⟩
  exact (prepare_covers allReturn 2 (by decide) 3).2.2.2 [0, 1, 0, 1, 1, 0, 0] (by decide)

end Sysbench.Prepare
