/-
What the request generators of the file I/O test produce.

Random requests: `total_size` need not be a multiple of `num_files`, and the bytes left
over are drawn as well.  A position drawn there belongs to no file; the quotient that
should name one comes out as `num_files` or more, and the check in `file_execute_event`
lets `num_files` itself pass.  With more files than bytes the quotient is a division by
zero.  `rnd_request_valid_iff` says that nothing else goes wrong.

Sequential requests: `Coverage` splits the requests made so far into whole passes over
files and the pass in progress.  One call extends it by one piece, or by nothing if it is
time to sync.
-/
import Sysbench.Lib.Runs
import Sysbench.Lib.Tiling
import Sysbench.Model.FileIo

namespace Sysbench.FileIo

open List Tiling

variable {memalign : ℕ → Bool} {g : Globals} {o : FileOptions} {cfg : FileConfig} {s' : FileState}

/-! ### Configurations -/

/-- What every configuration that is accepted satisfies. -/
structure Accepted (cfg : FileConfig) : Prop where
  numFiles_pos : 0 < cfg.numFiles
  numFiles_lt : cfg.numFiles < 2 ^ 32
  totalSize_lt : cfg.totalSize < 2 ^ 63
  fileSize_eq : cfg.fileSize = cfg.totalSize / cfg.numFiles
  blockSize_pos : 0 < cfg.blockSize
  blockSize_lt : cfg.blockSize < 2 ^ 31
  requestSize_lt : cfg.requestSize < 2 ^ 31

theorem bmod_two_pow_lt (x : ℤ) (k : ℕ) : x.bmod (2 ^ (k + 1)) < 2 ^ k := by
  have h := Int.bmod_lt (x := x) (Nat.two_pow_pos (k + 1))
  have hhalf : (((2 ^ (k + 1) : ℕ) : ℤ) + 1) / 2 = 2 ^ k := by
    push_cast
    omega
  rw [hhalf] at h
  exact h

theorem requestSizeOf_lt {blockSize : ℤ} (mergedRequests : ℤ) (h : blockSize < 2 ^ 31) :
    requestSizeOf blockSize mergedRequests < 2 ^ 31 := by
  unfold requestSizeOf
  split
  · exact bmod_two_pow_lt _ 31
  · exact h

theorem toNat_lt_two_pow {x : ℤ} {k : ℕ} (h : x < 2 ^ k) : x.toNat < 2 ^ k := by
  have hpos : 0 < 2 ^ k := Nat.two_pow_pos k
  have hcast : ((2 ^ k : ℕ) : ℤ) = 2 ^ k := by push_cast; rfl
  omega

/-- The sizes that accepted options are stored as, and what has been checked of them. -/
structure Stored (o : FileOptions) (cfg : FileConfig) : Prop where
  numFiles_eq : cfg.numFiles = (o.fileNum % 2 ^ 32).toNat
  numFiles_ne : cfg.numFiles ≠ 0
  totalSize_eq : (cfg.totalSize : ℤ) = (o.fileTotalSize.toNat : ℤ).bmod (2 ^ 64)
  totalSize_pos : 0 < cfg.totalSize
  fileSize_eq : cfg.fileSize = cfg.totalSize / cfg.numFiles
  merged_nonneg : 0 ≤ o.fileMergedRequests
  blockSize_eq : (cfg.blockSize : ℤ) = (o.fileBlockSize.toNat : ℤ).bmod (2 ^ 32)
  blockSize_pos : 0 < cfg.blockSize
  requestSize_eq : (cfg.requestSize : ℤ) = requestSizeOf cfg.blockSize o.fileMergedRequests

theorem parseArguments_stored (h : parseArguments memalign g o = .ok cfg) : Stored o cfg := by
  obtain ⟨_, hnum, h⟩ := Runs.bind_eq_ok.mp h
  obtain ⟨_, htotal, h⟩ := Runs.bind_eq_ok.mp h
  obtain ⟨testMode, -, h⟩ := Runs.bind_eq_ok.mp h
  obtain ⟨ioMode, -, h⟩ := Runs.bind_eq_ok.mp h
  obtain ⟨_, hmerged, h⟩ := Runs.bind_eq_ok.mp h
  obtain ⟨_, hblock, h⟩ := Runs.bind_eq_ok.mp h
  obtain ⟨extraFlags, -, h⟩ := Runs.bind_eq_ok.mp h
  obtain ⟨_, -, h⟩ := Runs.bind_eq_ok.mp h
  obtain ⟨fsyncMode, -, h⟩ := Runs.bind_eq_ok.mp h
  obtain ⟨_, -, h⟩ := Runs.bind_eq_ok.mp h
  obtain ⟨_, hbuf, h⟩ := Runs.bind_eq_ok.mp h
  cases h
  have hnum := Runs.not_of_check hnum
  have htotal := Int.not_le.mp (Runs.not_of_check htotal)
  have hmerged := Int.not_lt.mp (Runs.not_of_check hmerged)
  have hblock := Int.not_le.mp (Runs.not_of_check hblock)
  have hrequest := Int.not_lt.mp (not_or.mp (Runs.not_of_check hbuf)).1
  -- The wrapped values get names, so that nothing tries to evaluate them.
  generalize htotal_eq : (o.fileTotalSize.toNat : ℤ).bmod (2 ^ 64) = totalSize at htotal ⊢
  generalize hblock_eq : (o.fileBlockSize.toNat : ℤ).bmod (2 ^ 32) = blockSize at hblock hrequest ⊢
  exact {
    numFiles_eq := rfl
    numFiles_ne := hnum
    totalSize_eq := (Int.toNat_of_nonneg htotal.le).trans htotal_eq.symm
    totalSize_pos := Int.pos_iff_toNat_pos.mp htotal
    fileSize_eq := rfl
    merged_nonneg := hmerged
    blockSize_eq := (Int.toNat_of_nonneg hblock.le).trans hblock_eq.symm
    blockSize_pos := Int.pos_iff_toNat_pos.mp hblock
    requestSize_eq := by rw [Int.toNat_of_nonneg hrequest, Int.toNat_of_nonneg hblock.le] }

theorem parseArguments_accepted (h : parseArguments memalign g o = .ok cfg) : Accepted cfg := by
  have hstored := parseArguments_stored h
  have hnum_lt := Int.emod_lt_of_pos o.fileNum (show (0 : ℤ) < 2 ^ 32 by decide)
  have htotal_lt := bmod_two_pow_lt o.fileTotalSize.toNat 63
  have hblock_lt := bmod_two_pow_lt o.fileBlockSize.toNat 31
  rw [← hstored.totalSize_eq] at htotal_lt
  rw [← hstored.blockSize_eq] at hblock_lt
  have hrequest_lt := requestSizeOf_lt o.fileMergedRequests hblock_lt
  rw [← hstored.requestSize_eq] at hrequest_lt
  exact {
    numFiles_pos := Nat.pos_of_ne_zero hstored.numFiles_ne
    numFiles_lt := by
      rw [hstored.numFiles_eq]
      exact toNat_lt_two_pow hnum_lt
    totalSize_lt := by exact_mod_cast htotal_lt
    fileSize_eq := hstored.fileSize_eq
    blockSize_pos := hstored.blockSize_pos
    blockSize_lt := by exact_mod_cast hblock_lt
    requestSize_lt := by exact_mod_cast hrequest_lt }

/-! ### Random requests -/

/-- A data request that stays inside one of the files. -/
structure ValidData (cfg : FileConfig) (r : FileRequest) : Prop where
  fileId_lt : r.fileId < cfg.numFiles
  size_pos : 1 ≤ r.size
  fits : r.pos + r.size ≤ cfg.fileSize

/-- The position drawn, rounded to a block, lies in one of the files.  So many files that
the quotient wraps around `unsigned int` bring it back among them. -/
def RoundsIntoFiles (cfg : FileConfig) (tmppos : ℕ) : Prop :=
  0 < cfg.fileSize ∧
    (roundToBlock cfg tmppos < cfg.numFiles * cfg.fileSize ∨
      2 ^ 32 * cfg.fileSize ≤ roundToBlock cfg tmppos)

instance (cfg : FileConfig) (tmppos : ℕ) : Decidable (RoundsIntoFiles cfg tmppos) :=
  inferInstanceAs (Decidable (_ ∧ (_ ∨ _)))

theorem roundToBlock_le (cfg : FileConfig) (tmppos : ℕ) : roundToBlock cfg tmppos ≤ tmppos :=
  Nat.sub_le _ _

/-- At least half of `total_size` is in the files, if anything is. -/
theorem div_fileSize_lt (hcfg : Accepted cfg) (hsize : 0 < cfg.fileSize) {x : ℕ}
    (hx : x < cfg.totalSize) : x / cfg.fileSize < 2 * cfg.numFiles := by
  have htotal : cfg.totalSize < cfg.numFiles * (cfg.fileSize + 1) := by
    rw [hcfg.fileSize_eq]
    exact Nat.lt_mul_div_succ _ hcfg.numFiles_pos
  have hhalf : cfg.numFiles * (cfg.fileSize + 1) ≤ 2 * cfg.numFiles * cfg.fileSize := by
    have h := Nat.mul_le_mul_left cfg.numFiles (show cfg.fileSize + 1 ≤ 2 * cfg.fileSize by omega)
    calc cfg.numFiles * (cfg.fileSize + 1) ≤ cfg.numFiles * (2 * cfg.fileSize) := h
      _ = 2 * cfg.numFiles * cfg.fileSize := by rw [← Nat.mul_assoc, Nat.mul_comm cfg.numFiles 2]
  rw [Nat.div_lt_iff_lt_mul hsize]
  omega

theorem fileId_lt_iff (hcfg : Accepted cfg) (hsize : 0 < cfg.fileSize) {x : ℕ}
    (hx : x < cfg.totalSize) :
    x / cfg.fileSize % 2 ^ 32 < cfg.numFiles
      ↔ x < cfg.numFiles * cfg.fileSize ∨ 2 ^ 32 * cfg.fileSize ≤ x := by
  have hq := div_fileSize_lt hcfg hsize hx
  rw [← Nat.div_lt_iff_lt_mul hsize, ← Nat.le_div_iff_mul_le hsize]
  generalize x / cfg.fileSize = q at hq ⊢
  omega

theorem rndDataRequest_valid (hcfg : Accepted cfg) (operation : FileOp) {tmppos : ℕ}
    (hdraw : tmppos < cfg.totalSize) (h : RoundsIntoFiles cfg tmppos) :
    ∃ r, rndDataRequest cfg operation tmppos = .ok r ∧ ValidData cfg r := by
  obtain ⟨hsize, hfiles⟩ := h
  have hblock := hcfg.blockSize_pos
  have hround := roundToBlock_le cfg tmppos
  have hpos := Nat.mod_lt (roundToBlock cfg tmppos) hsize
  refine ⟨_, if_neg (by omega), ?_, ?_, ?_⟩
  · exact (fileId_lt_iff hcfg hsize (by omega)).mpr hfiles
  · show 1 ≤ min cfg.blockSize (cfg.fileSize - roundToBlock cfg tmppos % cfg.fileSize)
    omega
  · show roundToBlock cfg tmppos % cfg.fileSize
      + min cfg.blockSize (cfg.fileSize - roundToBlock cfg tmppos % cfg.fileSize) ≤ cfg.fileSize
    omega

theorem roundsIntoFiles_of_valid (hcfg : Accepted cfg) {operation : FileOp} {tmppos : ℕ}
    (hdraw : tmppos < cfg.totalSize) {r : FileRequest}
    (hr : rndDataRequest cfg operation tmppos = .ok r) (hvalid : ValidData cfg r) :
    RoundsIntoFiles cfg tmppos := by
  unfold rndDataRequest at hr
  split at hr
  · cases hr
  · have hsize : 0 < cfg.fileSize := by omega
    have hround := roundToBlock_le cfg tmppos
    cases hr
    exact ⟨hsize, (fileId_lt_iff hcfg hsize (by omega)).mp hvalid.fileId_lt⟩

section Generators

variable {quotient : UInt64 → UInt64 → ℚ} {s : FileState} {thread : ℕ} {counters : SbCounters}

variable {draws : List ℕ}

/-- The loop at `retry` ends with a request for one of the positions drawn. -/
theorem retryRnd_spec (g : Globals) (s : FileState) (thread : ℕ) {operation : FileOp}
    {P : FileRequest → Prop}
    (hdraws : ∀ d ∈ draws, ∃ r, rndDataRequest cfg operation d = .ok r ∧ P r) :
    ∃ found, retryRnd g cfg s thread operation draws = .ok found ∧
      ∀ r, found = some r → P r := by
  induction draws with
  | nil => exact ⟨none, rfl, nofun⟩
  | cons d draws ih =>
    obtain ⟨r, hr, hP⟩ := hdraws d mem_cons_self
    have ih := ih fun d' hd' => hdraws d' (mem_cons_of_mem _ hd')
    have hcall : retryRnd g cfg s thread operation (d :: draws)
        = if g.validate && blockInUse g s thread r then retryRnd g cfg s thread operation draws
          else pure (some r) := by
      rw [retryRnd, hr]
      rfl
    rw [hcall]
    split
    · exact ih
    · refine ⟨some r, rfl, ?_⟩
      rintro r' ⟨⟩
      exact hP

/-- How a random request comes about, if every position drawn leads to one with `P`. -/
theorem fileGetRndRequest_spec (g : Globals) (s : FileState) (thread : ℕ) {P : FileRequest → Prop}
    (hdraws : ∀ d ∈ draws, ∃ r, rndDataRequest cfg (rndOperation quotient cfg counters) d = .ok r ∧
      P r) :
    fileGetRndRequest quotient g cfg counters s thread draws
        = .ok (some (fsyncRequest cfg s)) ∨
      fileGetRndRequest quotient g cfg counters s thread draws = .ok none ∨
      ∃ r, P r ∧ fileGetRndRequest quotient g cfg counters s thread draws
        = .ok (some (r, recordRnd s thread r)) := by
  unfold fileGetRndRequest
  split
  · exact .inl rfl
  · obtain ⟨found, hfound, hP⟩ := retryRnd_spec g s thread hdraws
    rw [hfound]
    cases found with
    | none => exact .inr (.inl rfl)
    | some r => exact .inr (.inr ⟨r, hP r rfl, rfl⟩)

/-! #### The next file to sync -/

theorem fsyncRequest_fsyncedFile_lt (hpos : 0 < cfg.numFiles)
    (hs : s.fsyncedFile < cfg.numFiles) :
    (fsyncRequest cfg s).2.fsyncedFile < cfg.numFiles := by
  simp only [fsyncRequest]
  split
  · exact hpos
  · show s.fsyncedFile + 1 < cfg.numFiles
    omega

theorem rewind_fsyncedFile : (rewind cfg s).fsyncedFile = s.fsyncedFile := by
  unfold rewind
  split <;> rfl

theorem advance_fsyncedFile (size : ℕ) : (advance cfg s size).fsyncedFile = s.fsyncedFile := by
  unfold advance
  split <;> rfl

theorem fileGetSeqRequest_fsyncedFile_lt (hpos : 0 < cfg.numFiles)
    (hs : s.fsyncedFile < cfg.numFiles) :
    (fileGetSeqRequest g cfg s).2.fsyncedFile < cfg.numFiles := by
  unfold fileGetSeqRequest
  split
  · exact fsyncRequest_fsyncedFile_lt hpos hs
  · dsimp only
    split
    · show (advance cfg _ _).fsyncedFile < cfg.numFiles
      rw [advance_fsyncedFile, rewind_fsyncedFile]
      exact hs
    · rw [advance_fsyncedFile, rewind_fsyncedFile]
      exact hs

variable {r : FileRequest}

/-- However a random request comes about, it keeps the next file to sync or moves it on. -/
theorem fileGetRndRequest_state
    (h : fileGetRndRequest quotient g cfg counters s thread draws = .ok (some (r, s'))) :
    (r, s') = fsyncRequest cfg s ∨ s' = recordRnd s thread r := by
  unfold fileGetRndRequest at h
  split at h
  · cases h
    exact .inl rfl
  · obtain ⟨found, -, h⟩ := Runs.bind_eq_ok.mp h
    cases found with
    | none => cases h
    | some r' =>
      cases h
      exact .inr rfl

theorem genStep_fsyncedFile_lt (hpos : 0 < cfg.numFiles) {c : GenCall}
    {found : Option FileRequest} (hs : s.fsyncedFile < cfg.numFiles)
    (h : genStep quotient g cfg s c = .ok (s', found)) : s'.fsyncedFile < cfg.numFiles := by
  cases c with
  | seq =>
    cases h
    exact fileGetSeqRequest_fsyncedFile_lt hpos hs
  | rnd counters thread draws =>
    obtain ⟨result, hresult, h⟩ := Runs.bind_eq_ok.mp h
    cases result with
    | none =>
      cases h
      exact hs
    | some p =>
      cases h
      rcases fileGetRndRequest_state hresult with hp | hp
      · rw [congrArg Prod.snd hp]
        exact fsyncRequest_fsyncedFile_lt hpos hs
      · rw [hp]
        exact hs

/-- The calls made from the start of the test, and the states they lead to. -/
def Generated (quotient : UInt64 → UInt64 → ℚ) (g : Globals) (cfg : FileConfig)
    (s : FileState) : Prop :=
  ∃ perThread, Runs.Reach (genStep quotient g cfg) (fun _ _ => True) (initVars perThread) s

theorem generated_initVars (perThread : ℕ → PerThread) :
    Generated quotient g cfg (initVars perThread) :=
  ⟨perThread, .refl⟩

theorem Generated.fsyncedFile_lt (hpos : 0 < cfg.numFiles) (hs : Generated quotient g cfg s) :
    s.fsyncedFile < cfg.numFiles := by
  obtain ⟨perThread, hreach⟩ := hs
  exact hreach.invariant (P := fun s => s.fsyncedFile < cfg.numFiles) hpos
    fun hs _ h => genStep_fsyncedFile_lt hpos hs h

/-! #### Execution -/

/-- The program's own array of descriptors is never indexed out of range. -/
def IndexesFiles (g : Globals) (cfg : FileConfig) (r : FileRequest) : Prop :=
  ∀ crc32 rand s thread fileId,
    fileExecuteEvent crc32 rand g cfg s thread r ≠ .error (.filesIndex fileId)

variable {crc32 : Crc32} {fileId : ℕ}

theorem fileFillBuffer_ne_filesIndex {rand : ℕ → UInt8} {buf : List UInt8} {len offset : ℕ} :
    fileFillBuffer crc32 rand buf len offset ≠ .error (.filesIndex fileId) := by
  unfold fileFillBuffer
  dsimp only
  split <;> exact nofun

theorem fileValidateBuffer_ne_filesIndex {buf : List UInt8} {len offset : ℕ} :
    fileValidateBuffer crc32 buf len offset ≠ .error (.filesIndex fileId) := by
  unfold fileValidateBuffer
  dsimp only
  split
  · split
    · exact nofun
    · split <;> exact nofun
  · exact nofun

theorem executeWrite_ne_filesIndex {rand : ℕ → UInt8} {s : IoState} :
    executeWrite crc32 rand g cfg s thread r ≠ .error (.filesIndex fileId) := by
  intro h
  rcases Runs.bind_eq_error.mp h with hfill | ⟨buf, -, h⟩
  · unfold fillForWrite at hfill
    split at hfill
    · exact fileFillBuffer_ne_filesIndex hfill
    · cases hfill
  · cases h

theorem executeRead_ne_filesIndex {s : IoState} :
    executeRead crc32 g cfg s thread r ≠ .error (.filesIndex fileId) := by
  intro h
  unfold executeRead at h
  dsimp only at h
  split at h
  · cases h
  · split at h
    · rcases Runs.bind_eq_error.mp h with hcheck | ⟨check, -, h⟩
      · exact fileValidateBuffer_ne_filesIndex hcheck
      · cases check with
        | valid | checksumMismatch | offsetMismatch => cases h
    · cases h

theorem indexesFiles_of_lt (h : r.fileId < cfg.numFiles) : IndexesFiles g cfg r := by
  intro crc32 rand s thread fileId
  unfold fileExecuteEvent
  split
  · exact nofun
  · split
    · exact nofun
    · rw [if_neg (by omega)]
      cases r.operation with
      | null | fsync => exact nofun
      | read => exact executeRead_ne_filesIndex
      | write => exact executeWrite_ne_filesIndex

/-- What a call of the random generator may come back with: it has not divided by zero, a
data request is inside a file, and executing the request finds its descriptor. -/
def ValidOutcome (g : Globals) (cfg : FileConfig) :
    Except IoFault (Option (FileRequest × FileState)) → Prop
  | .error _ => False
  | .ok none => True
  | .ok (some (r, _)) => (r.IsData → ValidData cfg r) ∧ IndexesFiles g cfg r

theorem validOutcome_of_rounds (hcfg : Accepted cfg) (hs : s.fsyncedFile < cfg.numFiles)
    (hdraws : ∀ d ∈ draws, d < cfg.totalSize ∧ RoundsIntoFiles cfg d) :
    ValidOutcome g cfg (fileGetRndRequest quotient g cfg counters s thread draws) := by
  have hreq (d : ℕ) (hd : d ∈ draws) :=
    rndDataRequest_valid hcfg (rndOperation quotient cfg counters) (hdraws d hd).1 (hdraws d hd).2
  rcases fileGetRndRequest_spec g s thread hreq with h | h | ⟨r, hvalid, h⟩
  · rw [h]
    refine ⟨fun hdata => ?_, indexesFiles_of_lt hs⟩
    rcases hdata with hop | hop <;> cases hop
  · rw [h]
    trivial
  · rw [h]
    exact ⟨fun _ => hvalid, indexesFiles_of_lt hvalid.fileId_lt⟩

theorem rndOperation_isData (quotient : UInt64 → UInt64 → ℚ) (cfg : FileConfig)
    (counters : SbCounters) :
    rndOperation quotient cfg counters = .read ∨ rndOperation quotient cfg counters = .write := by
  unfold rndOperation
  split
  · split
    · exact .inl rfl
    · exact .inr rfl
  · split
    · exact .inr rfl
    · exact .inl rfl

/-- The first call of a test with a block no other thread is working on. -/
theorem fileGetRndRequest_first (g : Globals) (counters : SbCounters) (thread : ℕ) {d : ℕ}
    (hr : rndDataRequest cfg (rndOperation quotient cfg counters) d = .ok r) :
    ∃ s', Generated quotient g cfg s' ∧
      fileGetRndRequest quotient g cfg counters s' thread [d]
        = .ok (some (r, recordRnd s' thread r)) := by
  refine ⟨initVars fun _ => ⟨r.fileId + 1, 0⟩, generated_initVars _, ?_⟩
  have hdue : ¬fsyncDue cfg (initVars fun _ => ⟨r.fileId + 1, 0⟩) := fun h => nomatch h.2.1
  have hfree : blockInUse g (initVars fun _ => ⟨r.fileId + 1, 0⟩) thread r = false := by
    simp [blockInUse, initVars]
  rw [fileGetRndRequest, if_neg hdue, retryRnd, hr]
  show (if g.validate && blockInUse g _ thread r then _ else pure (some r)) >>= _ = _
  rw [hfree, Bool.and_false]
  rfl

theorem roundsIntoFiles_of_validOutcome (hcfg : Accepted cfg) {d : ℕ}
    (hdraw : d < cfg.totalSize)
    (h : ∀ s, Generated quotient g cfg s →
      ValidOutcome g cfg (fileGetRndRequest quotient g cfg (fun _ => 0) s 0 [d])) :
    RoundsIntoFiles cfg d := by
  cases hr : rndDataRequest cfg (rndOperation quotient cfg (fun _ => 0)) d with
  | error e =>
    have hcall : fileGetRndRequest quotient g cfg (fun _ => 0) (initVars fun _ => ⟨0, 0⟩) 0 [d]
        = .error e := by
      have hdue : ¬fsyncDue cfg (initVars fun _ => ⟨0, 0⟩) := fun h => nomatch h.2.1
      rw [fileGetRndRequest, if_neg hdue, retryRnd, hr]
      rfl
    have hvalid := h _ (generated_initVars fun _ => ⟨0, 0⟩)
    rw [hcall] at hvalid
    exact hvalid.elim
  | ok r =>
    obtain ⟨s, hs, hcall⟩ := fileGetRndRequest_first g (fun _ => 0) 0 hr
    have hvalid := h s hs
    rw [hcall] at hvalid
    have hop : r.operation = rndOperation quotient cfg (fun _ => 0) := by
      unfold rndDataRequest at hr
      split at hr
      · cases hr
      · cases hr
        rfl
    have hdata : r.IsData := by
      unfold FileRequest.IsData
      rw [hop]
      exact rndOperation_isData quotient cfg _
    exact roundsIntoFiles_of_valid hcfg hdraw hr (hvalid.1 hdata)

end Generators

/-- **Random requests are valid exactly where the files are.** For every configuration that
is accepted and every position drawn, all calls that may be made with it go well if and
only if the position, rounded to a block, lies in one of the files. -/
theorem rnd_request_valid_iff (memalign : ℕ → Bool) (g : Globals) (o : FileOptions)
    (cfg : FileConfig) (quotient : UInt64 → UInt64 → ℚ)
    (hparse : parseArguments memalign g o = .ok cfg) (tmppos : ℕ)
    (hdraw : tmppos < cfg.totalSize) :
    (∀ s counters thread, Generated quotient g cfg s →
        ValidOutcome g cfg (fileGetRndRequest quotient g cfg counters s thread [tmppos]))
      ↔ RoundsIntoFiles cfg tmppos := by
  have hcfg := parseArguments_accepted hparse
  refine ⟨fun h => ?_, fun h s counters thread hs => ?_⟩
  · exact roundsIntoFiles_of_validOutcome hcfg hdraw fun s hs => h s (fun _ => 0) 0 hs
  · refine validOutcome_of_rounds hcfg (hs.fsyncedFile_lt hcfg.numFiles_pos) ?_
    intro d hd
    rw [mem_singleton.mp hd]
    exact ⟨hdraw, h⟩

/-- A run of random reads in blocks of one byte, with the two sizes still to be given. -/
def smallOptions (fileNum : ℤ) (fileTotalSize : UInt64) : FileOptions where
  fileNum := fileNum
  fileTotalSize := fileTotalSize
  fileTestMode := some "rndrd"
  fileIoMode := some "sync"
  fileMergedRequests := 0
  fileBlockSize := 1
  fileExtraFlags := []
  fileFsyncFreq := 100
  fileFsyncAll := false
  fileFsyncEnd := true
  fileFsyncMode := "fsync"
  fileRwRatio := 3 / 2

/-- What `parse_arguments` makes of them. -/
def smallConfig (numFiles totalSize fileSize : ℕ) : FileConfig where
  numFiles := numFiles
  totalSize := totalSize
  fileSize := fileSize
  testMode := .rndRead
  blockSize := 1
  requestSize := 1

/-- A run over empty files. -/
def emptyIo (cfg : FileConfig) : IoState :=
  ioStart cfg (fun _ => ⟨0, 0⟩) fun _ => []

theorem rnd_request_valid_in_files :
    parseArguments (fun _ => true) ⟨"run", 1, false⟩ (smallOptions 3 10)
        = .ok (smallConfig 3 10 3) ∧
      ∀ s counters thread, Generated (fun _ _ => 1) ⟨"run", 1, false⟩ (smallConfig 3 10 3) s →
        ValidOutcome ⟨"run", 1, false⟩ (smallConfig 3 10 3)
          (fileGetRndRequest (fun _ _ => 1) ⟨"run", 1, false⟩ (smallConfig 3 10 3) counters s
            thread [8]) :=
  have hparse : parseArguments (fun _ => true) ⟨"run", 1, false⟩ (smallOptions 3 10)
      = .ok (smallConfig 3 10 3) := by decide +kernel
  ⟨hparse, (rnd_request_valid_iff _ _ _ _ (fun _ _ => 1) hparse 8 (by decide)).mpr (by decide)⟩

/-- Ten bytes in three files leave one byte over, and a draw of it leads to a fourth
descriptor; one byte in two files leaves no file size to divide by. -/
theorem rnd_request_leaves_files :
    (parseArguments (fun _ => true) ⟨"run", 1, false⟩ (smallOptions 3 10)
        = .ok (smallConfig 3 10 3) ∧
      ∃ r s', fileGetRndRequest (fun _ _ => 1) ⟨"run", 1, false⟩ (smallConfig 3 10 3)
          (fun _ => 0) (initVars fun _ => ⟨0, 0⟩) 0 [9] = .ok (some (r, s')) ∧
        r = { fileId := 3, pos := 0, size := 1, operation := .read } ∧
        fileExecuteEvent (fun _ => 0) (fun _ => 0) ⟨"run", 1, false⟩ (smallConfig 3 10 3)
          (emptyIo (smallConfig 3 10 3)) 0 r = .error (.filesIndex 3)) ∧
    (parseArguments (fun _ => true) ⟨"run", 1, false⟩ (smallOptions 2 1)
        = .ok (smallConfig 2 1 0) ∧
      fileGetRndRequest (fun _ _ => 1) ⟨"run", 1, false⟩ (smallConfig 2 1 0)
          (fun _ => 0) (initVars fun _ => ⟨0, 0⟩) 0 [0] = .error .divisionByZero) :=
  ⟨⟨by decide +kernel, _, _, rfl, rfl, rfl⟩, by decide +kernel, rfl⟩

/-! ### Sequential requests -/

/-- The requests lead through the file `file` from its start to position `pos`. -/
structure PassOver (cfg : FileConfig) (file pos : ℕ) (rs : List FileRequest) : Prop where
  same_file : ∀ r ∈ rs, r.fileId = file
  tiles : Tiles cfg.requestSize 0 (rs.map fun r => (r.pos, r.size)) pos

/-- Whole passes over the files in turn, from file 0 on and round again, and then a pass that
has come to position `pos`. -/
structure Coverage (cfg : FileConfig) (passes : List (List FileRequest))
    (current : List FileRequest) (pos : ℕ) : Prop where
  whole : ∀ i (h : i < passes.length), PassOver cfg (i % cfg.numFiles) cfg.fileSize passes[i]
  under_way : PassOver cfg (passes.length % cfg.numFiles) pos current
  pos_lt : pos < cfg.fileSize

theorem PassOver.nil (cfg : FileConfig) (file : ℕ) : PassOver cfg file 0 [] :=
  ⟨nofun, Tiles.nil _ _⟩

theorem PassOver.snoc {file pos : ℕ} {rs : List FileRequest} {r : FileRequest}
    (h : PassOver cfg file pos rs) (hfile : r.fileId = file) (hpos : r.pos = pos)
    (hsize : 0 < r.size) (hbound : r.size ≤ cfg.requestSize) :
    PassOver cfg file (pos + r.size) (rs ++ [r]) := by
  refine ⟨?_, ?_⟩
  · intro r' hr'
    rcases mem_append.mp hr' with hr' | hr'
    · exact h.same_file r' hr'
    · rw [mem_singleton.mp hr']
      exact hfile
  · rw [map_append, map_singleton, hpos]
    exact h.tiles.snoc hsize hbound

theorem Coverage.close {passes : List (List FileRequest)} {current : List FileRequest}
    {pos : ℕ} {rs : List FileRequest} (h : Coverage cfg passes current pos)
    (hrs : PassOver cfg (passes.length % cfg.numFiles) cfg.fileSize rs) :
    Coverage cfg (passes ++ [rs]) [] 0 := by
  refine ⟨?_, PassOver.nil _ _, Nat.zero_lt_of_lt h.pos_lt⟩
  intro i hi
  by_cases hold : i < passes.length
  · rw [getElem_append_left hold]
    exact h.whole i hold
  · have hlast : i = passes.length := by
      rw [length_append, length_singleton] at hi
      omega
    subst hlast
    rw [getElem_concat_length rfl]
    exact hrs

section Sequential

variable {s : FileState}

/-- Where the static variables stand after `done` whole passes and `pos` bytes more.  The
rewind is put off: after the last file `current_file` is `num_files`. -/
structure SeqAt (cfg : FileConfig) (s : FileState) (done pos : ℕ) : Prop where
  position : s.position = pos
  le_numFiles : s.currentFile ≤ cfg.numFiles
  turn : s.currentFile % cfg.numFiles = done % cfg.numFiles
  at_end : s.currentFile = cfg.numFiles → pos = 0

theorem seqAt_initVars (perThread : ℕ → PerThread) : SeqAt cfg (initVars perThread) 0 0 :=
  ⟨rfl, Nat.zero_le _, rfl, fun _ => rfl⟩

variable {done pos : ℕ}

theorem SeqAt.rewind (h : SeqAt cfg s done pos) :
    (rewind cfg s).position = pos ∧ (rewind cfg s).currentFile = done % cfg.numFiles := by
  have hle := h.le_numFiles
  have hturn := h.turn
  unfold FileIo.rewind
  split
  · rename_i hend
    rw [hend, Nat.mod_self] at hturn
    exact ⟨(h.at_end hend).symm, hturn⟩
  · rename_i hend
    rw [Nat.mod_eq_of_lt (by omega)] at hturn
    exact ⟨h.position, hturn⟩

theorem seqAt_advance_within {size : ℕ} (hfile : s.currentFile = done % cfg.numFiles)
    (hpos : 0 < cfg.numFiles) (hend : s.position + size ≠ cfg.fileSize) :
    SeqAt cfg (advance cfg s size) done (s.position + size) := by
  have hlt := Nat.mod_lt done hpos
  rw [advance, if_neg hend]
  refine ⟨rfl, ?_, ?_, ?_⟩
  · show s.currentFile ≤ cfg.numFiles
    omega
  · show s.currentFile % cfg.numFiles = done % cfg.numFiles
    rw [hfile, Nat.mod_mod]
  · intro hc
    have hc : s.currentFile = cfg.numFiles := hc
    omega

theorem seqAt_advance_end {size : ℕ} (hfile : s.currentFile = done % cfg.numFiles)
    (hpos : 0 < cfg.numFiles) (hend : s.position + size = cfg.fileSize) :
    SeqAt cfg (advance cfg s size) (done + 1) 0 := by
  have hlt := Nat.mod_lt done hpos
  rw [advance, if_pos hend]
  refine ⟨rfl, ?_, ?_, fun _ => rfl⟩
  · show s.currentFile + 1 ≤ cfg.numFiles
    omega
  · show (s.currentFile + 1) % cfg.numFiles = (done + 1) % cfg.numFiles
    rw [hfile, Nat.mod_add_mod]

/-- The two variables are all that `SeqAt` reads. -/
theorem SeqAt.congr (h : SeqAt cfg s done pos)
    (hposition : s'.position = s.position) (hfile : s'.currentFile = s.currentFile) :
    SeqAt cfg s' done pos := by
  refine ⟨hposition.trans h.position, ?_, ?_, ?_⟩
  · rw [hfile]
    exact h.le_numFiles
  · rw [hfile]
    exact h.turn
  · rw [hfile]
    exact h.at_end

theorem fsyncRequest_seqAt (h : SeqAt cfg s done pos) :
    SeqAt cfg (fsyncRequest cfg s).2 done pos := by
  simp only [fsyncRequest]
  split <;> exact h.congr rfl rfl

/-- What one call does: it asks for a sync and leaves the position, or for the next piece of
the file whose turn it is. -/
theorem fileGetSeqRequest_cases (g : Globals) (hpos : 0 < cfg.numFiles) (h : SeqAt cfg s done pos) :
    fileGetSeqRequest g cfg s = fsyncRequest cfg s ∨
    ((fileGetSeqRequest g cfg s).1
        = { fileId := done % cfg.numFiles, pos := pos,
            size := min cfg.requestSize (cfg.fileSize - pos), operation := seqOperation cfg } ∧
      if pos + min cfg.requestSize (cfg.fileSize - pos) = cfg.fileSize then
        SeqAt cfg (fileGetSeqRequest g cfg s).2 (done + 1) 0
      else
        SeqAt cfg (fileGetSeqRequest g cfg s).2 done
          (pos + min cfg.requestSize (cfg.fileSize - pos))) := by
  unfold fileGetSeqRequest
  split
  · exact .inl rfl
  · right
    -- Counting the request and marking the data dirty moves nothing.
    have h' : SeqAt cfg { s with
        reqPerformed := s.reqPerformed + 1
        isDirty := s.isDirty || seqOperation cfg = .write } done pos := h.congr rfl rfl
    obtain ⟨hposition, hfile⟩ := h'.rewind
    dsimp only
    generalize FileIo.rewind cfg _ = t at hposition hfile ⊢
    subst hposition
    have hstate : if t.position + (seqDataRequest cfg t).size = cfg.fileSize then
          SeqAt cfg (advance cfg t (seqDataRequest cfg t).size) (done + 1) 0
        else
          SeqAt cfg (advance cfg t (seqDataRequest cfg t).size) done
            (t.position + (seqDataRequest cfg t).size) := by
      split
      · exact seqAt_advance_end hfile hpos ‹_›
      · exact seqAt_advance_within hfile hpos ‹_›
    refine ⟨?_, ?_⟩
    · rw [seqDataRequest, hfile]
    · show if t.position + (seqDataRequest cfg t).size = cfg.fileSize then _ else _
      split at hstate
      · rename_i hend
        rw [if_pos hend]
        split
        · exact hstate.congr rfl rfl
        · exact hstate
      · rename_i hend
        rw [if_neg hend]
        split
        · exact hstate.congr rfl rfl
        · exact hstate

/-- The data requests of a list. -/
def dataRequests (rs : List FileRequest) : List FileRequest :=
  rs.filter fun r => r.IsData

theorem dataRequests_cons (r : FileRequest) (rs : List FileRequest) :
    dataRequests (r :: rs) = dataRequests [r] ++ dataRequests rs := by
  rw [dataRequests, dataRequests, dataRequests, ← filter_append, singleton_append]

/-- What the requests made so far have covered, and where the generator stands. -/
def SeqInv (cfg : FileConfig) (data : List FileRequest) (s : FileState) : Prop :=
  ∃ passes current pos, data = passes.flatten ++ current ∧
    Coverage cfg passes current pos ∧ SeqAt cfg s passes.length pos

theorem seqOperation_isData (cfg : FileConfig) :
    seqOperation cfg = .read ∨ seqOperation cfg = .write := by
  unfold seqOperation
  split
  · exact .inr rfl
  · exact .inl rfl

theorem SeqInv.step {data : List FileRequest} (hfiles : 0 < cfg.numFiles)
    (hrequest : 0 < cfg.requestSize) (h : SeqInv cfg data s) :
    SeqInv cfg (data ++ dataRequests [(fileGetSeqRequest g cfg s).1])
      (fileGetSeqRequest g cfg s).2 := by
  obtain ⟨passes, current, pos, hdata, hcov, hat⟩ := h
  rcases fileGetSeqRequest_cases g hfiles hat with hsync | ⟨hr, hstate⟩
  · have hnone : dataRequests [(fsyncRequest cfg s).1] = [] := rfl
    rw [hsync, hnone, append_nil]
    exact ⟨passes, current, pos, hdata, hcov, fsyncRequest_seqAt hat⟩
  · generalize (fileGetSeqRequest g cfg s).1 = r at hr ⊢
    have hisData : r.IsData := by
      rw [hr]
      exact seqOperation_isData cfg
    have hone : dataRequests [r] = [r] := by simp [dataRequests, hisData]
    have hsize : r.size = min cfg.requestSize (cfg.fileSize - pos) := by rw [hr]
    have hlt := hcov.pos_lt
    have hpass := hcov.under_way.snoc (r := r) (by rw [hr]) (by rw [hr]) (by omega) (by omega)
    rw [← hsize] at hstate
    rw [hone, hdata]
    split at hstate
    · -- The piece ends the file: its pass is whole, and the next one has not begun.
      rename_i hend
      refine ⟨passes ++ [current ++ [r]], [], 0, ?_, ?_, ?_⟩
      · simp
      · exact hcov.close (hend ▸ hpass)
      · rw [length_append]
        exact hstate
    · refine ⟨passes, current ++ [r], pos + r.size, ?_, ?_, hstate⟩
      · rw [append_assoc]
      · exact ⟨hcov.whole, hpass, by omega⟩

theorem SeqInv.run {data : List FileRequest} (hfiles : 0 < cfg.numFiles)
    (hrequest : 0 < cfg.requestSize) (k : ℕ) (h : SeqInv cfg data s) :
    SeqInv cfg (data ++ dataRequests (fileGetSeqRequests g cfg k s).1)
      (fileGetSeqRequests g cfg k s).2 := by
  induction k generalizing data s with
  | zero =>
    rw [fileGetSeqRequests, dataRequests, filter_nil, append_nil]
    exact h
  | succ k ih =>
    have hrest := ih (h.step (g := g) hfiles hrequest)
    rw [append_assoc] at hrest
    rw [fileGetSeqRequests, dataRequests_cons]
    exact hrest

/-! ### Syncs in between -/

theorem advance_rewind_counts (cfg : FileConfig) (t : FileState) (size : ℕ) :
    (advance cfg (rewind cfg t) size).reqPerformed = t.reqPerformed ∧
      (advance cfg (rewind cfg t) size).isDirty = t.isDirty ∧
      (advance cfg (rewind cfg t) size).fsyncedFile = t.fsyncedFile := by
  unfold advance rewind
  split <;> split <;> exact ⟨rfl, rfl, rfl⟩

/-- How many syncs come between two data requests at most -/
def syncBatch (cfg : FileConfig) : ℕ :=
  if cfg.fsyncFreq ≠ 0 ∧ seqOperation cfg = .write then cfg.numFiles else 0

/-- So many calls have made so many data requests.  What is dirty has been written since the last
batch of syncs was complete, and `fsynced_file` counts those of a batch under way. -/
structure Paced (cfg : FileConfig) (calls count : ℕ) (s : FileState) : Prop where
  dirty : s.isDirty = true → calls + syncBatch cfg ≤ count * (syncBatch cfg + 1) + s.fsyncedFile
  clean : s.isDirty = false → calls ≤ count * (syncBatch cfg + 1)
  synced : s.fsyncedFile = 0 ∨ s.fsyncedFile < syncBatch cfg

theorem paced_initVars (perThread : ℕ → PerThread) : Paced cfg 0 0 (initVars perThread) :=
  ⟨nofun, fun _ => Nat.zero_le _, .inl rfl⟩

variable {calls count : ℕ}

theorem Paced.calls_le (h : Paced cfg calls count s) : calls ≤ count * (syncBatch cfg + 1) := by
  have hsynced := h.synced
  cases hs : s.isDirty with
  | true =>
    have hdirty := h.dirty hs
    omega
  | false => exact h.clean hs

theorem Paced.sync (hfiles : 0 < cfg.numFiles) (h : Paced cfg calls count s)
    (hwrite : seqOperation cfg = .write) (hdue : fsyncDue cfg s) :
    Paced cfg (calls + 1) count (fsyncRequest cfg s).2 := by
  have hdirty := h.dirty hdue.2.1
  have hsynced := h.synced
  have hbatch : syncBatch cfg = cfg.numFiles := if_pos ⟨hdue.1, hwrite⟩
  simp only [fsyncRequest]
  split
  · refine ⟨nofun, fun _ => ?_, .inl rfl⟩
    omega
  · refine ⟨fun _ => ?_, fun hclean => ?_, .inr ?_⟩
    · show calls + 1 + syncBatch cfg ≤ _ + (s.fsyncedFile + 1)
      omega
    · cases hdue.2.1.symm.trans hclean
    · show s.fsyncedFile + 1 < syncBatch cfg
      omega

theorem Paced.data (h : Paced cfg calls count s) {s' : FileState}
    (hsynced : s'.fsyncedFile = s.fsyncedFile) : Paced cfg (calls + 1) (count + 1) s' := by
  have hle := h.calls_le
  refine ⟨fun _ => ?_, fun _ => ?_, ?_⟩
  · rw [Nat.succ_mul]
    omega
  · rw [Nat.succ_mul]
    omega
  · rw [hsynced]
    exact h.synced

theorem Paced.step (hfiles : 0 < cfg.numFiles) (h : Paced cfg calls count s) :
    Paced cfg (calls + 1) (count + (dataRequests [(fileGetSeqRequest g cfg s).1]).length)
      (fileGetSeqRequest g cfg s).2 := by
  unfold fileGetSeqRequest
  split
  · rename_i hdue
    exact h.sync hfiles hdue.1 hdue.2
  · dsimp only
    have hsynced (t : FileState) (size : ℕ) := (advance_rewind_counts cfg t size).2.2
    have hone (t : FileState) : (dataRequests [seqDataRequest cfg t]).length = 1 := by
      have hisData : (seqDataRequest cfg t).IsData := seqOperation_isData cfg
      simp [dataRequests, hisData]
    rw [hone]
    split
    · exact h.data (hsynced _ _)
    · exact h.data (hsynced _ _)

theorem Paced.run (hfiles : 0 < cfg.numFiles) (k : ℕ) (h : Paced cfg calls count s) :
    Paced cfg (calls + k) (count + (dataRequests (fileGetSeqRequests g cfg k s).1).length)
      (fileGetSeqRequests g cfg k s).2 := by
  induction k generalizing calls count s with
  | zero => exact h
  | succ k ih =>
    have hrest := ih (h.step (g := g) hfiles)
    rw [Nat.add_assoc, Nat.add_comm 1 k, Nat.add_assoc, ← length_append] at hrest
    rw [fileGetSeqRequests, dataRequests_cons]
    exact hrest

end Sequential

/-- **Sequential requests cover the files.** Whatever is synced in between, the data requests
of any number of calls are whole passes over file 0, 1, … and round again, and then a pass
under way; the pieces of a pass are consecutive, none is empty or longer than the request
size, and those of a whole pass contain every position of the file exactly once.  All calls make
data requests if nothing is to be synced, and otherwise at least one in `numFiles + 1`. -/
theorem seq_requests_cover (g : Globals) (cfg : FileConfig) (hfiles : 1 ≤ cfg.numFiles)
    (hsize : 1 ≤ cfg.fileSize) (hrequest : 1 ≤ cfg.requestSize) (perThread : ℕ → PerThread)
    (calls : ℕ) :
    ∃ passes current pos,
      dataRequests (fileGetSeqRequests g cfg calls (initVars perThread)).1
        = passes.flatten ++ current ∧
      calls ≤ (passes.flatten ++ current).length * (syncBatch cfg + 1) ∧
      Coverage cfg passes current pos ∧
      ∀ pass ∈ passes, ∀ x, (pass.map fun r => (r.pos, r.size)).countP (Covers x)
        = if x < cfg.fileSize then 1 else 0 := by
  have hstart : SeqInv cfg [] (initVars perThread) := by
    refine ⟨[], [], 0, rfl, ⟨?_, PassOver.nil _ _, hsize⟩, seqAt_initVars perThread⟩
    exact nofun
  obtain ⟨passes, current, pos, hdata, hcov, -⟩ := hstart.run (g := g) hfiles hrequest calls
  have hcalls := ((paced_initVars perThread).run (g := g) hfiles calls).calls_le
  rw [Nat.zero_add, Nat.zero_add] at hcalls
  refine ⟨passes, current, pos, hdata, hdata ▸ hcalls, hcov, ?_⟩
  intro pass hpass x
  obtain ⟨i, hi, rfl⟩ := getElem_of_mem hpass
  rw [(hcov.whole i hi).tiles.countP_covers x]
  simp

/-- Rewriting two files of five bytes in pieces of two, with a sync after every third. -/
def rewriteConfig : FileConfig :=
  { smallConfig 2 10 5 with testMode := .rewrite, requestSize := 2, fsyncFreq := 3 }

theorem seq_requests_cover_two_files :
    (dataRequests (fileGetSeqRequests ⟨"run", 1, true⟩ rewriteConfig 12
        (initVars fun _ => ⟨0, 0⟩)).1).map (fun r => (r.fileId, r.pos, r.size))
      = [(0, 0, 2), (0, 2, 2), (0, 4, 1), (1, 0, 2), (1, 2, 2), (1, 4, 1), (0, 0, 2), (0, 2, 2)] ∧
    ∃ passes current pos,
      dataRequests (fileGetSeqRequests ⟨"run", 1, true⟩ rewriteConfig 12
        (initVars fun _ => ⟨0, 0⟩)).1 = passes.flatten ++ current ∧
      12 ≤ (passes.flatten ++ current).length * 3 ∧
      Coverage rewriteConfig passes current pos ∧
      ∀ pass ∈ passes, ∀ x, (pass.map fun r => (r.pos, r.size)).countP (Covers x)
        = if x < rewriteConfig.fileSize then 1 else 0 :=
  ⟨by decide, seq_requests_cover ⟨"run", 1, true⟩ rewriteConfig (by decide) (by decide) (by decide)
    _ 12⟩

end Sysbench.FileIo
