/-
The checker of sequential requests against their generator.

With `--validate` every data request goes through `check_seq_req` together with the one
before it.  `Follows` says what that one was, seen from where the generator stands: none at
all, the piece in front of it in the same file, or the last piece of the file before.  The
checker has a case for each of them, except that with a single file the file before is the
same file: there the first request of every pass but the first one looks like a jump back.
-/
import Sysbench.Proofs.FileRequests

namespace Sysbench.FileIo

variable {g : Globals} {cfg : FileConfig} {s : FileState}

/-! ### What the checker says -/

/-- The request made last, if `done` files have been passed over and `pos` bytes of the next. -/
inductive Follows (cfg : FileConfig) (prev : FileRequest) : ℕ → ℕ → Prop where
  | nothing (hop : prev.operation = .null) : Follows cfg prev 0 0
  | within {done pos : ℕ} (hop : prev.operation ≠ .null) (hfile : prev.fileId = done % cfg.numFiles)
      (hend : prev.pos + prev.size = pos) (hpos : 0 < pos) : Follows cfg prev done pos
  | behind {done : ℕ} (hop : prev.operation ≠ .null) (hfile : prev.fileId = done % cfg.numFiles)
      (hend : prev.pos + prev.size = cfg.fileSize) (hsize : 0 < prev.size) :
      Follows cfg prev (done + 1) 0

theorem succ_mod_cases {n : ℕ} (hn : 0 < n) (d : ℕ) :
    d % n + 1 < n ∧ (d + 1) % n = d % n + 1 ∨ d % n + 1 = n ∧ (d + 1) % n = 0 := by
  have hlt := Nat.mod_lt d hn
  rw [← Nat.mod_add_mod]
  by_cases hend : d % n + 1 < n
  · exact .inl ⟨hend, Nat.mod_eq_of_lt hend⟩
  · have hlast : d % n + 1 = n := by omega
    rw [hlast]
    exact .inr ⟨rfl, Nat.mod_self n⟩

theorem checkSeqReq_eq_none_iff {prev r : FileRequest} {done pos : ℕ} (hfiles : 0 < cfg.numFiles)
    (hfiles_lt : cfg.numFiles < 2 ^ 32) (h : Follows cfg prev done pos) (hop : r.IsData)
    (hfile : r.fileId = done % cfg.numFiles) (hpos : r.pos = pos) :
    checkSeqReq cfg prev r = none ↔ ¬(cfg.numFiles = 1 ∧ done ≠ 0 ∧ pos = 0) := by
  have hdata : ¬(r.operation = .fsync ∨ r.operation = .null) := by
    rcases hop with hop | hop
    · rw [hop]; decide
    · rw [hop]; decide
  rw [checkSeqReq, if_neg hdata]
  cases h with
  | nothing hprev =>
    rw [if_pos hprev]
    simp
  | within hprev hprevFile hend hwithin =>
    have hsame : r.fileId = prev.fileId := hfile.trans hprevFile.symm
    rw [hsame, if_pos rfl]
    simp
    omega
  | @behind done hprev hprevFile hend hsize =>
    rw [if_neg hprev, hfile, hprevFile, hpos]
    rcases succ_mod_cases hfiles done with ⟨hnext, hmod⟩ | ⟨hlast, hmod⟩
    · -- the file behind
      rw [hmod, if_neg (by omega), if_neg (by omega), if_neg (by simp [hend])]
      simp
      omega
    · -- back at the first file
      rw [hmod, if_neg (by omega)]
      by_cases hone : cfg.numFiles = 1
      · have hzero : done % cfg.numFiles = 0 := by omega
        rw [hzero, if_pos rfl, if_pos (by omega)]
        simp [hone]
      · rw [if_neg (by omega), if_neg (by simp [hend])]
        simp [hone]

/-! ### One call -/

theorem fsyncRequest_prevReq :
    (fsyncRequest cfg s).2.prevReq = s.prevReq ∧ (fsyncRequest cfg s).2.warnings = s.warnings := by
  simp only [fsyncRequest]
  split
  · exact ⟨rfl, rfl⟩
  · exact ⟨rfl, rfl⟩

theorem rewind_prevReq :
    (rewind cfg s).prevReq = s.prevReq ∧ (rewind cfg s).warnings = s.warnings := by
  unfold rewind
  split
  · exact ⟨rfl, rfl⟩
  · exact ⟨rfl, rfl⟩

theorem advance_prevReq (size : ℕ) :
    (advance cfg s size).prevReq = s.prevReq ∧ (advance cfg s size).warnings = s.warnings := by
  unfold advance
  split
  · exact ⟨rfl, rfl⟩
  · exact ⟨rfl, rfl⟩

theorem fileGetSeqRequest_checks (hvalidate : g.validate = true)
    (hdata : (fileGetSeqRequest g cfg s).1.IsData) :
    (fileGetSeqRequest g cfg s).2.prevReq = (fileGetSeqRequest g cfg s).1 ∧
      (fileGetSeqRequest g cfg s).2.warnings
        = (checkSeqReq cfg s.prevReq (fileGetSeqRequest g cfg s).1).toList ++ s.warnings := by
  unfold fileGetSeqRequest at hdata ⊢
  split
  · rename_i hdue
    rw [if_pos hdue] at hdata
    rcases hdata with h | h
    · cases h
    · cases h
  · dsimp only
    refine ⟨rfl, ?_⟩
    rw [(advance_prevReq _).1, (advance_prevReq _).2, rewind_prevReq.1, rewind_prevReq.2]

/-- The number of requests for one file. -/
def pieces (cfg : FileConfig) : ℕ :=
  (cfg.fileSize + cfg.requestSize - 1) / cfg.requestSize

theorem lt_pieces_iff (hrequest : 0 < cfg.requestSize) (j : ℕ) :
    j < pieces cfg ↔ j * cfg.requestSize < cfg.fileSize := by
  rw [pieces, ← Nat.succ_le_iff, Nat.le_div_iff_mul_le hrequest, Nat.succ_mul]
  omega

/-- Where the generator stands after `count` data requests, what it remembers, and when the
checker has said nothing. -/
structure Checked (cfg : FileConfig) (s : FileState) (count : ℕ) : Prop where
  stands : ∃ done j, SeqAt cfg s done (j * cfg.requestSize) ∧ j < pieces cfg ∧
    Follows cfg s.prevReq done (j * cfg.requestSize) ∧ count = done * pieces cfg + j
  silent : s.warnings = [] ↔ cfg.numFiles ≠ 1 ∨ count ≤ pieces cfg

theorem checked_initVars (perThread : ℕ → PerThread) (hsize : 0 < cfg.fileSize)
    (hrequest : 0 < cfg.requestSize) : Checked cfg (initVars perThread) 0 := by
  refine ⟨⟨0, 0, ?_, ?_, ?_, by omega⟩, ?_⟩
  · rw [Nat.zero_mul]
    exact seqAt_initVars perThread
  · rw [lt_pieces_iff hrequest]
    omega
  · rw [Nat.zero_mul]
    exact .nothing rfl
  · exact ⟨fun _ => .inr (Nat.zero_le _), fun _ => rfl⟩

/-- The check fails with the first request of the second pass, and with one of every later
pass. -/
theorem silent_step {done j count p n : ℕ} (hj : j < p) (hcount : count = done * p + j) :
    (¬(n = 1 ∧ done ≠ 0 ∧ j = 0) ∧ (n ≠ 1 ∨ count ≤ p)) ↔ (n ≠ 1 ∨ count + 1 ≤ p) := by
  match done with
  | 0 => omega
  | 1 => omega
  | done + 2 =>
    have hmul : (done + 2) * p = done * p + 2 * p := Nat.add_mul done 2 p
    omega

/-- Where the generator stands behind the request for piece `j` of a file. -/
theorem stands_step {r : FileRequest} {done j count : ℕ} (hrequest : 0 < cfg.requestSize)
    (hj : j < pieces cfg) (hcount : count = done * pieces cfg + j) (hop : r.operation ≠ .null)
    (hfile : r.fileId = done % cfg.numFiles) (hpos : r.pos = j * cfg.requestSize)
    (hsize : r.size = min cfg.requestSize (cfg.fileSize - j * cfg.requestSize))
    (hprev : s.prevReq = r)
    (hstate : if j * cfg.requestSize + r.size = cfg.fileSize then SeqAt cfg s (done + 1) 0
      else SeqAt cfg s done (j * cfg.requestSize + r.size)) :
    ∃ done j, SeqAt cfg s done (j * cfg.requestSize) ∧ j < pieces cfg ∧
      Follows cfg s.prevReq done (j * cfg.requestSize) ∧ count + 1 = done * pieces cfg + j := by
  have hlt := (lt_pieces_iff hrequest j).mp hj
  split at hstate
  · -- The last piece of the file: as many as there are pieces.
    have hlast : pieces cfg = j + 1 := by
      have hnext := (lt_pieces_iff hrequest (j + 1)).not.mpr (by rw [Nat.succ_mul]; omega)
      omega
    refine ⟨done + 1, 0, by rwa [Nat.zero_mul], by omega, ?_, ?_⟩
    · rw [Nat.zero_mul, hprev]
      exact .behind hop hfile (by omega) (by omega)
    · rw [hcount, hlast, Nat.succ_mul]
      omega
  · rename_i hend
    have hnext : j * cfg.requestSize + r.size = (j + 1) * cfg.requestSize := by
      rw [Nat.succ_mul]
      omega
    rw [hnext] at hstate hend
    refine ⟨done, j + 1, hstate, ?_, ?_, by omega⟩
    · rw [lt_pieces_iff hrequest]
      omega
    · rw [hprev]
      exact .within hop hfile (by omega) (Nat.mul_pos (Nat.succ_pos j) hrequest)

section Warnings

variable (hvalidate : g.validate = true) (hfiles : 0 < cfg.numFiles)
  (hfiles_lt : cfg.numFiles < 2 ^ 32) (hrequest : 0 < cfg.requestSize)
include hvalidate hfiles hfiles_lt hrequest

theorem Checked.step {count : ℕ} (h : Checked cfg s count) :
    Checked cfg (fileGetSeqRequest g cfg s).2
      (count + (dataRequests [(fileGetSeqRequest g cfg s).1]).length) := by
  obtain ⟨⟨done, j, hat, hj, hfollows, hcount⟩, hsilent⟩ := h
  rcases fileGetSeqRequest_cases g hfiles hat with hsync | ⟨hr, hstate⟩
  · have hnone : dataRequests [(fsyncRequest cfg s).1] = [] := rfl
    rw [hsync, hnone]
    refine ⟨⟨done, j, fsyncRequest_seqAt hat, hj, ?_, hcount⟩, ?_⟩
    · rw [fsyncRequest_prevReq.1]
      exact hfollows
    · rw [fsyncRequest_prevReq.2]
      exact hsilent
  · have hisData : (fileGetSeqRequest g cfg s).1.IsData := by
      rw [hr]
      exact seqOperation_isData cfg
    obtain ⟨hprev, hwarnings⟩ := fileGetSeqRequest_checks hvalidate hisData
    generalize (fileGetSeqRequest g cfg s).1 = r at hr hisData hprev hwarnings ⊢
    have hone : dataRequests [r] = [r] := by simp [dataRequests, hisData]
    have hop : r.operation ≠ .null := by
      rcases hisData with h | h
      · rw [h]; decide
      · rw [h]; decide
    have hsize : r.size = min cfg.requestSize (cfg.fileSize - j * cfg.requestSize) := by rw [hr]
    have hfile : r.fileId = done % cfg.numFiles := by rw [hr]
    have hpos : r.pos = j * cfg.requestSize := by rw [hr]
    rw [hone]
    refine ⟨?_, ?_⟩
    · rw [← hsize] at hstate
      exact stands_step hrequest hj hcount hop hfile hpos hsize hprev hstate
    · have hcheck := checkSeqReq_eq_none_iff hfiles hfiles_lt hfollows hisData hfile hpos
      have hzero : j * cfg.requestSize = 0 ↔ j = 0 := by
        rw [Nat.mul_eq_zero]
        omega
      rw [hzero] at hcheck
      rw [hwarnings, List.append_eq_nil_iff, Option.toList_eq_nil_iff, hcheck, hsilent]
      exact silent_step hj hcount

theorem Checked.run {count : ℕ} (k : ℕ) (h : Checked cfg s count) :
    Checked cfg (fileGetSeqRequests g cfg k s).2
      (count + (dataRequests (fileGetSeqRequests g cfg k s).1).length) := by
  induction k generalizing count s with
  | zero => exact h
  | succ k ih =>
    have hrest := ih (h.step (g := g) hvalidate hfiles hfiles_lt hrequest)
    rw [Nat.add_assoc, ← List.length_append] at hrest
    rw [fileGetSeqRequests, dataRequests_cons]
    exact hrest

theorem warnings_eq_nil_iff_count (hsize : 0 < cfg.fileSize) (perThread : ℕ → PerThread) (k : ℕ) :
    (fileGetSeqRequests g cfg k (initVars perThread)).2.warnings = [] ↔
      cfg.numFiles ≠ 1 ∨
        (dataRequests (fileGetSeqRequests g cfg k (initVars perThread)).1).length ≤ pieces cfg := by
  have hrun := (checked_initVars perThread hsize hrequest).run hvalidate hfiles hfiles_lt hrequest k
  rw [Nat.zero_add] at hrun
  exact hrun.silent

end Warnings

/-! ### A single file -/

theorem isData_of_not_due (h : ¬fsyncDue cfg s) : (fileGetSeqRequest g cfg s).1.IsData := by
  rw [fileGetSeqRequest, if_neg fun hc => h hc.2]
  exact seqOperation_isData cfg

/-- With one file a series of syncs is one request, so of two calls at least one asks for
data. -/
theorem isData_of_two_calls (hone : cfg.numFiles = 1) (hs : s.fsyncedFile < cfg.numFiles) :
    (fileGetSeqRequest g cfg s).1.IsData ∨
      (fileGetSeqRequest g cfg (fileGetSeqRequest g cfg s).2).1.IsData := by
  by_cases hdue : seqOperation cfg = .write ∧ fsyncDue cfg s
  · right
    have hclean : (fileGetSeqRequest g cfg s).2.isDirty = false := by
      rw [fileGetSeqRequest, if_pos hdue, fsyncRequest]
      have hlast : s.fsyncedFile + 1 = cfg.numFiles := by omega
      simp [hlast]
    apply isData_of_not_due
    intro hagain
    have hdirty := hagain.2.1
    rw [hclean] at hdirty
    exact Bool.false_ne_true hdirty
  · left
    rw [fileGetSeqRequest, if_neg hdue]
    exact seqOperation_isData cfg

theorem length_dataRequests_of_isData {r : FileRequest} (h : r.IsData) :
    (dataRequests [r]).length = 1 := by
  simp [dataRequests, h]

theorem dataRequests_of_calls (hone : cfg.numFiles = 1) (m : ℕ)
    (hs : s.fsyncedFile < cfg.numFiles) :
    m ≤ (dataRequests (fileGetSeqRequests g cfg (2 * m) s).1).length := by
  have hpos : 0 < cfg.numFiles := by omega
  induction m generalizing s with
  | zero => exact Nat.zero_le _
  | succ m ih =>
    have hnext := fileGetSeqRequest_fsyncedFile_lt (g := g) hpos hs
    have hrest := ih (fileGetSeqRequest_fsyncedFile_lt (g := g) hpos hnext)
    rw [Nat.mul_succ, fileGetSeqRequests, dataRequests_cons, fileGetSeqRequests]
    rw [dataRequests_cons (fileGetSeqRequest g cfg (fileGetSeqRequest g cfg s).2).1,
      List.length_append, List.length_append]
    rcases isData_of_two_calls (g := g) hone hs with h | h
    · rw [length_dataRequests_of_isData h]
      omega
    · rw [length_dataRequests_of_isData h]
      omega

/-- **The checker of sequential requests accepts their generator**, whatever the mode, the sizes
and the syncs are, unless there is a single file. -/
theorem seq_requests_accepted_iff (g : Globals) (hvalidate : g.validate = true) (cfg : FileConfig)
    (hfiles : 1 ≤ cfg.numFiles) (hfiles_lt : cfg.numFiles < 2 ^ 32) (hsize : 1 ≤ cfg.fileSize)
    (hrequest : 1 ≤ cfg.requestSize) (perThread : ℕ → PerThread) :
    (∀ calls, (fileGetSeqRequests g cfg calls (initVars perThread)).2.warnings = []) ↔
      cfg.numFiles ≠ 1 := by
  constructor
  · intro hsilent hone
    have hcount := dataRequests_of_calls (g := g) (s := initVars perThread) hone
      (pieces cfg + 1) hfiles
    have hquiet := (warnings_eq_nil_iff_count hvalidate hfiles hfiles_lt hrequest hsize perThread
      (2 * (pieces cfg + 1))).mp (hsilent _)
    rcases hquiet with hmany | hfew
    · exact hmany hone
    · omega
  · intro hmany calls
    exact (warnings_eq_nil_iff_count hvalidate hfiles hfiles_lt hrequest hsize perThread
      calls).mpr (.inl hmany)

theorem two_files_are_accepted :
    rewriteConfig.numFiles = 2 ∧ ∀ calls, (fileGetSeqRequests ⟨"run", 1, true⟩ rewriteConfig calls
      (initVars fun _ => ⟨0, 0⟩)).2.warnings = [] := by
  refine ⟨rfl, ?_⟩
  exact (seq_requests_accepted_iff ⟨"run", 1, true⟩ rfl rewriteConfig (by decide) (by decide)
    (by decide) (by decide) fun _ => ⟨0, 0⟩).mpr (by decide)

/-- One file of five bytes in pieces of two: the fourth request starts over. -/
theorem second_pass_is_found_wrong :
    (fileGetSeqRequests ⟨"run", 1, true⟩
        { smallConfig 1 5 5 with testMode := .read, requestSize := 2 } 4
        (initVars fun _ => ⟨0, 0⟩)).2.warnings
      = ["Discovered too large position difference in seq request!"] := by
  decide

end Sysbench.FileIo
