/-
How much the memory test transfers.

`memory_init` divides the number of blocks in the total size by the number of threads and
gives every thread the quotient, so the remainder is granted to nobody.  A thread's counter
goes down with each of its calls and no other, which is why the interleaving does not matter:
after any run a thread has been granted as many events as it has made calls, up to its share
(`ThreadAt`).  A total size of 2^63 or more is negative in `memory_total_size`, and then
there is no limit at all.
-/
import Mathlib.Data.Fintype.BigOperators
import Sysbench.Lib.Fairness
import Sysbench.Lib.Schedule
import Sysbench.Proofs.MemoryTest

namespace Sysbench.MemoryTest

open Function Schedule

variable {p : Platform} {threads : ℕ} {o : MemoryOptions} {cfg : MemoryConfig}

/-! ### One thread among the others -/

/-- A thread that has had this many turns. -/
structure ThreadAt (cfg : MemoryConfig) (t : Fin threads) (calls : ℕ) (s : MemoryThreads threads) :
    Prop where
  counter : calls ≤ cfg.threadCounter.toNat →
    (s.counters t).toNat + calls = cfg.threadCounter.toNat
  granted_eq : s.granted t = min calls cfg.threadCounter.toNat
  stopped_iff : s.stopped t = true ↔ cfg.threadCounter.toNat < calls

theorem threadAt_start (t : Fin threads) : ThreadAt cfg t 0 (memoryStart cfg threads) := by
  refine ⟨fun _ => rfl, ?_, ?_⟩
  · simp [memoryStart]
  · simp [memoryStart]

variable {s : MemoryThreads threads} {t tid : Fin threads} {calls : ℕ}

/-- With a limit, a call counts down and returns a null event at zero. -/
theorem memoryTurn_of_limit (hlimit : 0 < cfg.memoryTotalSize) (hrunning : s.stopped tid = false) :
    memoryTurn cfg s tid =
      if s.counters tid = 0 then
        { s with
          counters := update s.counters tid (s.counters tid - 1)
          stopped := update s.stopped tid true }
      else
        { s with
          counters := update s.counters tid (s.counters tid - 1)
          granted := update s.granted tid (s.granted tid + 1) } := by
  unfold memoryTurn memoryNextEvent
  by_cases hzero : s.counters tid = 0
  · simp [hrunning, hlimit, hzero]
  · simp [hrunning, hlimit, hzero]

theorem ThreadAt.own (hlimit : 0 < cfg.memoryTotalSize) (h : ThreadAt cfg t calls s) :
    ThreadAt cfg t (calls + 1) (memoryTurn cfg s t) := by
  have hgranted := h.granted_eq
  have hstopped := h.stopped_iff
  by_cases hdone : s.stopped t = true
  · -- The thread makes no call; it has had its share before.
    have hshare := hstopped.mp hdone
    rw [memoryTurn, if_pos hdone]
    refine ⟨fun hle => ?_, ?_, ?_⟩
    · omega
    · omega
    · exact iff_of_true hdone (by omega)
  · have hcalls : calls ≤ cfg.threadCounter.toNat := by
      rw [hstopped] at hdone
      exact Nat.le_of_not_lt hdone
    have hcounter := h.counter hcalls
    rw [memoryTurn_of_limit hlimit (Bool.eq_false_of_not_eq_true hdone)]
    by_cases hzero : s.counters t = 0
    · have hlast : calls = cfg.threadCounter.toNat := by
        rw [hzero] at hcounter
        exact (Nat.zero_add _).symm.trans hcounter
      rw [if_pos hzero]
      refine ⟨fun hle => ?_, ?_, ?_⟩
      · omega
      · show s.granted t = _
        omega
      · simp [hlast]
    · have hpos : (s.counters t).toNat ≠ 0 := fun hc => hzero (UInt64.toNat_inj.mp hc)
      have hdown : (s.counters t - 1).toNat = (s.counters t).toNat - 1 := by
        apply UInt64.toNat_sub_of_le
        exact Nat.one_le_iff_ne_zero.mpr hpos
      rw [if_neg hzero]
      refine ⟨fun _ => ?_, ?_, ?_⟩
      · simp only [update_self]
        omega
      · simp only [update_self]
        omega
      · exact iff_of_false hdone (by omega)

theorem ThreadAt.other (hlimit : 0 < cfg.memoryTotalSize) (hne : t ≠ tid)
    (h : ThreadAt cfg t calls s) : ThreadAt cfg t calls (memoryTurn cfg s tid) := by
  by_cases hdone : s.stopped tid = true
  · rw [memoryTurn, if_pos hdone]
    exact h
  · rw [memoryTurn_of_limit hlimit (Bool.eq_false_of_not_eq_true hdone)]
    split
    · refine ⟨?_, h.granted_eq, ?_⟩
      · simpa [update_of_ne hne] using h.counter
      · simpa [update_of_ne hne] using h.stopped_iff
    · refine ⟨?_, ?_, h.stopped_iff⟩
      · simpa [update_of_ne hne] using h.counter
      · simpa [update_of_ne hne] using h.granted_eq

/-- After any run a thread is where its own turns have taken it. -/
theorem threadAt_run (hlimit : 0 < cfg.memoryTotalSize) (turns : List (Fin threads))
    (t : Fin threads) : ThreadAt cfg t (turns.count t) (memoryRun cfg threads turns) := by
  apply foldl_count
  · exact threadAt_start
  · intro s t calls h
    exact h.own hlimit
  · intro s t tid calls hne h
    exact h.other hlimit hne

/-! ### All threads -/

/-- The threads come to an end in every fair interleaving, and whenever all of them have come to
their end, they have been granted `events` events together. -/
structure Transfers (cfg : MemoryConfig) (threads events : ℕ) : Prop where
  ends : ∀ σ : ℕ → Fin threads, Fair σ →
    ∃ n, ∀ t, (memoryRun cfg threads (turns σ n)).stopped t = true
  total : ∀ run : List (Fin threads), (∀ t, (memoryRun cfg threads run).stopped t = true) →
    ∑ t, (memoryRun cfg threads run).granted t = events

theorem ends_of_limit (hlimit : 0 < cfg.memoryTotalSize) {σ : ℕ → Fin threads} (hσ : Fair σ) :
    ∃ n, ∀ t, (memoryRun cfg threads (turns σ n)).stopped t = true := by
  obtain ⟨n, hn⟩ := hσ.exists_turns fun _ => cfg.threadCounter.toNat + 1
  refine ⟨n, fun t => ?_⟩
  rw [(threadAt_run hlimit (turns σ n) t).stopped_iff]
  exact hn t

theorem granted_of_limit (hlimit : 0 < cfg.memoryTotalSize) {run : List (Fin threads)}
    (h : ∀ t, (memoryRun cfg threads run).stopped t = true) :
    ∑ t, (memoryRun cfg threads run).granted t = threads * cfg.threadCounter.toNat := by
  have hshare (t : Fin threads) :
      (memoryRun cfg threads run).granted t = cfg.threadCounter.toNat := by
    have hat := threadAt_run hlimit run t
    have hcalls := hat.stopped_iff.mp (h t)
    rw [hat.granted_eq, Nat.min_eq_right (Nat.le_of_lt hcalls)]
  simp [hshare]

theorem running_of_no_limit (hlimit : ¬0 < cfg.memoryTotalSize) (run : List (Fin threads)) :
    ∀ t, (memoryRun cfg threads run).stopped t = false := by
  apply invariant (P := fun s : MemoryThreads threads => ∀ t, s.stopped t = false)
  · intro s tid h t
    unfold memoryTurn memoryNextEvent
    simp [h tid, hlimit, h t]
  · exact fun t => rfl

/-! ### The shares -/

/-- As a `long long` a size of 2^63 or more is negative. -/
theorem bmod_total_size {n : ℕ} (hn : n < 2 ^ 64) :
    (n : ℤ).bmod (2 ^ 64) = if n < 2 ^ 63 then (n : ℤ) else n - 2 ^ 64 := by
  rw [Int.bmod_def]
  split <;>
    · split <;> omega

theorem memoryTotalSize_pos_iff (h : memoryInit p threads o = .ok cfg)
    (htotal : 0 < o.memoryTotalSize.toNat) :
    0 < cfg.memoryTotalSize ↔ o.memoryTotalSize.toNat < 2 ^ 63 := by
  have hlt := o.memoryTotalSize.toNat_lt
  rw [(memoryInit_stored h).totalSize_eq, bmod_total_size hlt]
  split <;> omega

/-- Every thread gets the same share of the blocks. -/
theorem threadCounter_of_accepted (h : memoryInit p threads o = .ok cfg)
    (hfits : o.memoryTotalSize.toNat < 2 ^ 63) :
    cfg.threadCounter.toNat = o.memoryTotalSize.toNat / cfg.memoryBlockSize / threads := by
  have hstored := memoryInit_stored h
  have htotal : cfg.memoryTotalSize = (o.memoryTotalSize.toNat : ℤ) := by
    rw [hstored.totalSize_eq, bmod_total_size (by omega), if_pos hfits]
  have hshare : (cfg.memoryTotalSize.tdiv cfg.memoryBlockSize).tdiv threads
      = ((o.memoryTotalSize.toNat / cfg.memoryBlockSize / threads : ℕ) : ℤ) := by
    rw [htotal]
    rfl
  have hle : o.memoryTotalSize.toNat / cfg.memoryBlockSize / threads
      ≤ o.memoryTotalSize.toNat :=
    (Nat.div_le_self _ _).trans (Nat.div_le_self _ _)
  rw [hstored.threadCounter_eq, hshare]
  generalize o.memoryTotalSize.toNat / cfg.memoryBlockSize / threads = share at hle ⊢
  rw [UInt64.ofInt, UInt64.toNat_ofNat']
  omega

/-- **The total is transferred** if it is below 2^63 and the threads divide the number of blocks,
and not otherwise. -/
theorem memory_total_iff (p : Platform) (threads : ℕ) (hthreads : 0 < threads) (o : MemoryOptions)
    (htotal : 0 < o.memoryTotalSize) (cfg : MemoryConfig)
    (h : memoryInit p threads o = .ok cfg) :
    Transfers cfg threads (o.memoryTotalSize.toNat / cfg.memoryBlockSize) ↔
      o.memoryTotalSize.toNat < 2 ^ 63 ∧
        threads ∣ o.memoryTotalSize.toNat / cfg.memoryBlockSize := by
  have hpos := memoryTotalSize_pos_iff h (UInt64.lt_iff_toNat_lt.mp htotal)
  constructor
  · intro htransfers
    obtain ⟨n, hn⟩ := htransfers.ends (inTurn hthreads) (fair_inTurn hthreads)
    have hlimit : 0 < cfg.memoryTotalSize := by
      by_contra hno
      have hrunning := running_of_no_limit hno (turns (inTurn hthreads) n) ⟨0, hthreads⟩
      exact nomatch hrunning.symm.trans (hn ⟨0, hthreads⟩)
    have hfits := hpos.mp hlimit
    refine ⟨hfits, cfg.threadCounter.toNat, ?_⟩
    rw [← htransfers.total _ hn, granted_of_limit hlimit hn]
  · rintro ⟨hfits, hdvd⟩
    have hlimit := hpos.mpr hfits
    refine ⟨fun σ hσ => ends_of_limit hlimit hσ, fun run hrun => ?_⟩
    rw [granted_of_limit hlimit hrun, threadCounter_of_accepted h hfits,
      Nat.mul_div_cancel' hdvd]

/-- Blocks of 1 KiB read in order, up to a total size -/
def readTotal (total : UInt64) : MemoryOptions :=
  { readBlocks 1024 with memoryTotalSize := total }

def totalConfig (total : ℤ) (threadCounter : UInt64) : MemoryConfig :=
  { readingConfig 1024 127 with memoryTotalSize := total, threadCounter := threadCounter }

theorem six_blocks_by_three_threads :
    memoryInit roomy 3 (readTotal 6144) = .ok (totalConfig 6144 2) ∧
      Transfers (totalConfig 6144 2) 3 6 := by
  have haccepted : memoryInit roomy 3 (readTotal 6144) = .ok (totalConfig 6144 2) := by
    decide +kernel
  refine ⟨haccepted, ?_⟩
  exact (memory_total_iff roomy 3 (by decide) (readTotal 6144) (by decide) (totalConfig 6144 2)
    haccepted).mpr ⟨by decide, by decide⟩

/-- Seven blocks for three threads: two each, and then everybody is told to stop. -/
theorem seventh_block_is_never_granted :
    memoryInit roomy 3 (readTotal 7168) = .ok (totalConfig 7168 2) ∧
      (readTotal 7168).memoryTotalSize.toNat / (totalConfig 7168 2).memoryBlockSize = 7 ∧
      (∀ t, (memoryRun (totalConfig 7168 2) 3 [0, 1, 2, 0, 1, 2, 0, 1, 2]).stopped t = true) ∧
      ∑ t, (memoryRun (totalConfig 7168 2) 3 [0, 1, 2, 0, 1, 2, 0, 1, 2]).granted t = 6 ∧
      ¬Transfers (totalConfig 7168 2) 3 7 := by
  have hstops : ∀ t,
      (memoryRun (totalConfig 7168 2) 3 [0, 1, 2, 0, 1, 2, 0, 1, 2]).stopped t = true := by
    decide +kernel
  have hsix :
      ∑ t, (memoryRun (totalConfig 7168 2) 3 [0, 1, 2, 0, 1, 2, 0, 1, 2]).granted t = 6 := by
    decide +kernel
  refine ⟨by decide +kernel, by decide, hstops, hsix, fun h => ?_⟩
  exact absurd (hsix.symm.trans (h.total _ hstops)) (by decide)

end Sysbench.MemoryTest
