/-
When the file I/O test syncs its files.

Nothing in the generators says that a series of fsync requests is under way.  What keeps it
together is that `req_performed` stands still while it lasts and `is_dirty` is cleared by its
last request only, so that the condition that started it goes on to hold.  `Emits` says what
one request does to the three variables, and `ScheduleInv` reads all three off the requests
made so far; the schedules then are read off the invariant.
-/
import Sysbench.Proofs.FileRequests

namespace Sysbench.FileIo

open List

variable {g : Globals} {cfg : FileConfig} {s s' : FileState} {r : FileRequest}

/-! ### One request -/

/-- The modes in which every data request is a write. -/
def FileTestMode.writes (mode : FileTestMode) : Prop :=
  mode = .write ∨ mode = .rewrite ∨ mode = .rndWrite

/-- How a request comes about where the test may write: one of a series if the series is due,
and a data request otherwise. -/
def Emits (cfg : FileConfig) (s : FileState) (r : FileRequest) (s' : FileState) : Prop :=
  if fsyncDue cfg s then (r, s') = fsyncRequest cfg s
  else
    r.IsData ∧ (cfg.testMode.writes → r.operation = .write) ∧
      s'.reqPerformed = s.reqPerformed + 1 ∧
      s'.isDirty = (s.isDirty || r.operation = .write) ∧ s'.fsyncedFile = s.fsyncedFile

theorem rndDataRequest_operation {operation : FileOp} {tmppos : ℕ}
    (h : rndDataRequest cfg operation tmppos = .ok r) : r.operation = operation := by
  unfold rndDataRequest at h
  split at h
  · cases h
  · cases h
    rfl

variable {quotient : UInt64 → UInt64 → ℚ}

/-- The last request of a series over `n` files. -/
def ClosesSeries (n : ℕ) (r : FileRequest) : Prop :=
  r.operation = .fsync ∧ r.fileId + 1 = n

instance (n : ℕ) (r : FileRequest) : Decidable (ClosesSeries n r) :=
  inferInstanceAs (Decidable (_ ∧ _))

/-- The requests since the last completed series, newest first. -/
def sinceSeries (n : ℕ) (past : List FileRequest) : List FileRequest :=
  past.reverse.takeWhile fun r => ¬ClosesSeries n r

/-- The number of data requests is a positive multiple of `f`, and a write was issued since the
last completed series. -/
def SeriesDue (f n : ℕ) (past : List FileRequest) : Prop :=
  0 < (dataRequests past).length ∧ f ∣ (dataRequests past).length ∧
    ∃ r ∈ sinceSeries n past, r.operation = .write

/-- A series has begun and is not complete. -/
def UnderWay (n : ℕ) (past : List FileRequest) : Prop :=
  ∃ r ∈ past.getLast?, r.operation = .fsync ∧ ¬ClosesSeries n r

theorem sinceSeries_snoc (n : ℕ) (past : List FileRequest) (r : FileRequest) :
    sinceSeries n (past ++ [r]) = if ClosesSeries n r then [] else r :: sinceSeries n past := by
  rw [sinceSeries, reverse_append, reverse_singleton, singleton_append,
    takeWhile_cons]
  by_cases hr : ClosesSeries n r
  · simp [hr]
  · simp [hr, sinceSeries]

theorem dataRequests_snoc (past : List FileRequest) (r : FileRequest) :
    (dataRequests (past ++ [r])).length
      = (dataRequests past).length + if r.IsData then 1 else 0 := by
  by_cases hr : r.IsData
  · simp [dataRequests, hr]
  · simp [dataRequests, hr]

theorem underWay_snoc (n : ℕ) (past : List FileRequest) (r : FileRequest) :
    UnderWay n (past ++ [r]) ↔ r.operation = .fsync ∧ ¬ClosesSeries n r := by
  simp [UnderWay]

variable {past : List FileRequest}

/-- A write counts as a data request, so the number is positive where one was issued. -/
theorem dataRequests_pos {n : ℕ} (h : ∃ r ∈ sinceSeries n past, r.operation = .write) :
    0 < (dataRequests past).length := by
  obtain ⟨r, hr, hop⟩ := h
  refine length_pos_of_mem (a := r) ?_
  have hpast : r ∈ past := mem_reverse.mp ((takeWhile_sublist _).subset hr)
  have hdata : r.IsData := .inr hop
  simp [dataRequests, hpast, hdata]

/-- The three variables, as the requests made so far determine them. -/
structure ScheduleInv (cfg : FileConfig) (past : List FileRequest) (s : FileState) : Prop where
  count : s.reqPerformed.toNat = (dataRequests past).length
  dirty : s.isDirty = true ↔ ∃ r ∈ sinceSeries cfg.numFiles past, r.operation = .write
  synced_lt : s.fsyncedFile < cfg.numFiles
  underWay : UnderWay cfg.numFiles past ↔ 0 < s.fsyncedFile
  due : 0 < s.fsyncedFile → fsyncDue cfg s

theorem ScheduleInv.fsyncDue_iff (h : ScheduleInv cfg past s) (hf : 1 ≤ cfg.fsyncFreq) :
    fsyncDue cfg s ↔ SeriesDue cfg.fsyncFreq cfg.numFiles past := by
  unfold fsyncDue SeriesDue
  rw [h.count, h.dirty, Nat.dvd_iff_mod_eq_zero]
  refine ⟨fun ⟨_, hdirty, hcount⟩ => ⟨dataRequests_pos hdirty, hcount, hdirty⟩,
    fun ⟨_, hcount, hdirty⟩ => ⟨by omega, hdirty, hcount⟩⟩

theorem ScheduleInv.fsync (h : ScheduleInv cfg past s) (hdue : fsyncDue cfg s) :
    ScheduleInv cfg (past ++ [fsyncOf s.fsyncedFile]) (fsyncRequest cfg s).2 := by
  have hlt := h.synced_lt
  have hdata : ¬(fsyncOf s.fsyncedFile).IsData := by simp [fsyncOf, FileRequest.IsData]
  have hcount : (dataRequests (past ++ [fsyncOf s.fsyncedFile])).length
      = (dataRequests past).length := by rw [dataRequests_snoc, if_neg hdata, Nat.add_zero]
  by_cases hlast : s.fsyncedFile + 1 = cfg.numFiles
  · have hcloses : ClosesSeries cfg.numFiles (fsyncOf s.fsyncedFile) := ⟨rfl, hlast⟩
    rw [fsyncRequest, if_pos hlast]
    refine ⟨hcount ▸ h.count, ?_, by show 0 < _; omega, ?_, fun hc => absurd hc (Nat.lt_irrefl 0)⟩
    · rw [sinceSeries_snoc, if_pos hcloses]
      simp
    · rw [underWay_snoc]
      exact ⟨fun hc => absurd hcloses hc.2, fun hc => absurd hc (Nat.lt_irrefl 0)⟩
  · have hcloses : ¬ClosesSeries cfg.numFiles (fsyncOf s.fsyncedFile) := fun hc => hlast hc.2
    have hdirty := h.dirty
    rw [fsyncRequest, if_neg hlast]
    refine ⟨hcount ▸ h.count, ?_, by show s.fsyncedFile + 1 < _; omega, ?_, fun _ => hdue⟩
    · rw [sinceSeries_snoc, if_neg hcloses]
      simpa [fsyncOf] using hdirty
    · rw [underWay_snoc]
      exact ⟨fun _ => Nat.succ_pos _, fun _ => ⟨rfl, hcloses⟩⟩

theorem ScheduleInv.data (h : ScheduleInv cfg past s) (hdue : ¬fsyncDue cfg s) (hr : r.IsData)
    (hcount : (dataRequests (past ++ [r])).length < 2 ^ 32)
    (hreq : s'.reqPerformed = s.reqPerformed + 1)
    (hdirty : s'.isDirty = (s.isDirty || r.operation = .write))
    (hsynced : s'.fsyncedFile = s.fsyncedFile) : ScheduleInv cfg (past ++ [r]) s' := by
  have hzero : s.fsyncedFile = 0 := by
    by_contra hne
    exact hdue (h.due (Nat.pos_of_ne_zero hne))
  have hnot : r.operation ≠ .fsync := by
    rcases hr with hop | hop <;>
      · rw [hop]
        decide
  have hcloses : ¬ClosesSeries cfg.numFiles r := fun hc => hnot hc.1
  rw [dataRequests_snoc, if_pos hr] at hcount
  refine ⟨?_, ?_, hsynced ▸ h.synced_lt, ?_, fun hpos => ?_⟩
  · have hone : (1 : UInt32).toNat = 1 := rfl
    rw [dataRequests_snoc, if_pos hr, hreq, UInt32.toNat_add, h.count, hone]
    exact Nat.mod_eq_of_lt hcount
  · rw [sinceSeries_snoc, if_neg hcloses, hdirty]
    simp only [Bool.or_eq_true, decide_eq_true_eq, mem_cons, exists_eq_or_imp, h.dirty]
    exact or_comm
  · rw [underWay_snoc, hsynced, hzero]
    exact ⟨fun hc => absurd hc.1 hnot, fun hc => absurd hc (Nat.lt_irrefl 0)⟩
  · rw [hsynced, hzero] at hpos
    exact absurd hpos (Nat.lt_irrefl 0)

theorem ScheduleInv.step (h : ScheduleInv cfg past s)
    (hcount : (dataRequests (past ++ [r])).length < 2 ^ 32) (hemits : Emits cfg s r s') :
    ScheduleInv cfg (past ++ [r]) s' := by
  unfold Emits at hemits
  split at hemits
  · rename_i hdue
    have hr : r = fsyncOf s.fsyncedFile := congrArg Prod.fst hemits
    have hs' : s' = (fsyncRequest cfg s).2 := congrArg Prod.snd hemits
    rw [hr, hs']
    exact h.fsync hdue
  · rename_i hdue
    obtain ⟨hr, -, hreq, hdirty, hsynced⟩ := hemits
    exact h.data hdue hr hcount hreq hdirty hsynced

/-! ### Runs -/

section Run

variable {rs : List FileRequest} {states : ℕ → FileState}

/-- Where the variables stand `m` requests into a round. -/
structure WriteAt (cfg : FileConfig) (past : List FileRequest) (round m : ℕ) (s : FileState) :
    Prop where
  lt : m < cfg.fsyncFreq + cfg.numFiles
  length : past.length = round * (cfg.fsyncFreq + cfg.numFiles) + m
  count : (dataRequests past).length = round * cfg.fsyncFreq + min m cfg.fsyncFreq
  dirty : s.isDirty = decide (0 < m)
  synced : s.fsyncedFile = m - cfg.fsyncFreq

theorem WriteAt.fsyncDue_iff {past : List FileRequest} {round m : ℕ}
    (h : WriteAt cfg past round m s) (hf : 1 ≤ cfg.fsyncFreq)
    (hcount : s.reqPerformed.toNat = (dataRequests past).length) :
    fsyncDue cfg s ↔ cfg.fsyncFreq ≤ m := by
  unfold fsyncDue
  rw [hcount, h.count, h.dirty, Nat.add_comm, Nat.add_mul_mod_self_right, decide_eq_true_eq]
  by_cases hm : cfg.fsyncFreq ≤ m
  · rw [Nat.min_eq_right hm, Nat.mod_self]
    omega
  · rw [Nat.mod_eq_of_lt (by omega)]
    omega

theorem WriteAt.step {past : List FileRequest} {round m : ℕ} (h : WriteAt cfg past round m s)
    (hf : 1 ≤ cfg.fsyncFreq) (hn : 1 ≤ cfg.numFiles)
    (hcount : s.reqPerformed.toNat = (dataRequests past).length)
    (hmode : cfg.testMode.writes) (hemits : Emits cfg s r s') :
    (if m < cfg.fsyncFreq then r.operation = .write else r = fsyncOf (m - cfg.fsyncFreq)) ∧
      ∃ round' m', WriteAt cfg (past ++ [r]) round' m' s' := by
  have hlt := h.lt
  have hlen := h.length
  have hdata := h.count
  unfold Emits at hemits
  split at hemits
  · -- The round is in its series of syncs.
    rename_i hdue
    rw [h.fsyncDue_iff hf hcount] at hdue
    have hr : r = fsyncOf (m - cfg.fsyncFreq) := by
      rw [← h.synced]
      exact congrArg Prod.fst hemits
    have hs' : s' = (fsyncRequest cfg s).2 := congrArg Prod.snd hemits
    have hnot : ¬r.IsData := by
      rw [hr]
      simp [fsyncOf, FileRequest.IsData]
    refine ⟨by rw [if_neg (by omega)]; exact hr, ?_⟩
    rw [fsyncRequest, h.synced] at hs'
    by_cases hlast : m - cfg.fsyncFreq + 1 = cfg.numFiles
    · rw [if_pos hlast] at hs'
      refine ⟨round + 1, 0, by omega, ?_, ?_, by rw [hs']; rfl,
        by rw [hs']; exact (Nat.zero_sub _).symm⟩
      · rw [length_append, length_singleton, hlen, Nat.succ_mul]
        omega
      · rw [dataRequests_snoc, if_neg hnot, hdata, Nat.succ_mul]
        omega
    · rw [if_neg hlast] at hs'
      refine ⟨round, m + 1, by omega, ?_, ?_, ?_, ?_⟩
      · rw [length_append, length_singleton, hlen]
        omega
      · rw [dataRequests_snoc, if_neg hnot, hdata]
        omega
      · rw [hs']
        rw [h.dirty, decide_eq_decide]
        omega
      · rw [hs']
        show m - cfg.fsyncFreq + 1 = _
        omega
  · rename_i hdue
    rw [h.fsyncDue_iff hf hcount] at hdue
    obtain ⟨hr, hwrite, -, hdirty, hsynced⟩ := hemits
    have hop := hwrite hmode
    refine ⟨by rw [if_pos (by omega)]; exact hop, round, m + 1, by omega, ?_, ?_, ?_, ?_⟩
    · rw [length_append, length_singleton, hlen]
      omega
    · rw [dataRequests_snoc, if_pos hr, hdata]
      omega
    · rw [hdirty, hop]
      simp
    · rw [hsynced, h.synced]
      omega

end Run

end Sysbench.FileIo
