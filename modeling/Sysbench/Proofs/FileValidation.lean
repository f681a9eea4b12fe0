/-
When `--validate` finds what `--validate` has written.

A filled buffer ends with a checksum of what stands before and the offset it is written
to; `Sealed` says so of a run of bytes.  Three places decide where such a run begins and
ends: `create_files` writes whole blocks, the sequential generator asks for up to
`file_request_size` bytes, and the random one for what is left of the file behind a
rounded position.  They agree where `WholeBlocks` holds.  Every request is then one block
of the file, and every block of every file stays sealed (`BlocksSealed`).
-/
import Sysbench.Proofs.FileRequests

namespace Sysbench.FileIo

open List Function ByteStore

variable {crc32 : Crc32} {g : Globals} {cfg : FileConfig} {buf : List UInt8}
  {files : ℕ → List UInt8}

/-! ### Sealed buffers -/

/-- The bytes end with the checksum of what stands before, and the offset. -/
def Sealed (crc32 : Crc32) (bytes : List UInt8) (offset : ℕ) : Prop :=
  ∃ body, bytes = body ++ (le 4 (crc32 body).toNat ++ le 8 offset)

theorem Sealed.length_eq {bytes body : List UInt8} {offset : ℕ}
    (h : bytes = body ++ (le 4 (crc32 body).toNat ++ le 8 offset)) :
    bytes.length = body.length + trailerLength := by
  rw [h]
  simp [trailerLength]

theorem fileFillBuffer_sealed (crc32 : Crc32) (rand : ℕ → UInt8) (offset : ℕ)
    {len : ℕ} (htrailer : trailerLength ≤ len) (hlen : len ≤ buf.length)
    (hfit : len < 2 ^ 32) :
    ∃ buf', fileFillBuffer crc32 rand buf len offset = .ok buf' ∧
      buf'.length = buf.length ∧ Sealed crc32 (buf'.take len) offset := by
  have hbound : (len + 2 ^ 64 - trailerLength) % 2 ^ 64 = len - trailerLength := by
    omega
  have hbody : ((range (len - trailerLength)).map rand).length = len - trailerLength := by
    rw [length_map, length_range]
  generalize hdata : (range (len - trailerLength)).map rand = body at hbody
  have hsealed : (body ++ (le 4 (crc32 body).toNat ++ le 8 offset)).length = len := by
    rw [Sealed.length_eq rfl, hbody]
    omega
  refine ⟨body ++ (le 4 (crc32 body).toNat ++ le 8 offset) ++ buf.drop len, ?_, ?_, ?_⟩
  · rw [fileFillBuffer, hbound]
    dsimp only
    rw [if_pos ⟨by omega, hlen⟩, hdata, append_assoc body]
  · rw [length_append, hsealed, length_drop]
    omega
  · rw [← hsealed, take_left]
    exact ⟨body, rfl⟩

theorem fileValidateBuffer_valid {len offset : ℕ}
    (htrailer : trailerLength ≤ len) (hlen : len ≤ buf.length) (hfit : len < 2 ^ 32)
    (hoffset : offset < 2 ^ 64) (h : Sealed crc32 (buf.take len) offset) :
    fileValidateBuffer crc32 buf len offset = .ok .valid := by
  obtain ⟨body, hbytes⟩ := h
  have hbody : body.length = len - trailerLength := by
    have := Sealed.length_eq hbytes
    rw [length_take] at this
    omega
  have hcs : (len + 2 ^ 64 - trailerLength) % 2 ^ 32 = body.length := by
    omega
  have hbuf : buf = body ++ (le 4 (crc32 body).toNat ++ (le 8 offset ++ buf.drop len)) := by
    rw [← append_assoc (le 4 _), ← append_assoc body, ← hbytes, take_append_drop]
  have hcrc : pread buf body.length 4 = le 4 (crc32 body).toNat := by
    rw [hbuf, pread, drop_left]
    exact take_left' (length_le _ _)
  have hoff : pread buf (body.length + 4) 8 = le 8 offset := by
    rw [hbuf, pread, ← append_assoc, drop_left' (by simp)]
    exact take_left' (length_le _ _)
  have hfront : buf.take body.length = body := by
    rw [hbuf, take_left]
  rw [fileValidateBuffer, hcs]
  rw [if_pos ⟨by omega, hlen⟩, hfront, hcrc, hoff, leVal_le, leVal_le,
    Nat.mod_eq_of_lt (show offset < 256 ^ 8 from hoffset)]
  simp

/-! ### Whole blocks -/

/-- The sizes fit together: a block has room for the trailer, files consist of whole blocks,
and the buffer holds one of them. -/
structure WholeBlocks (cfg : FileConfig) : Prop where
  trailer_le : trailerLength ≤ cfg.blockSize
  fileSize_pos : 0 < cfg.fileSize
  dvd : cfg.blockSize ∣ cfg.fileSize
  le_requestSize : cfg.blockSize ≤ cfg.requestSize

/-- What a call asks for is one of those blocks: a sequential request is no longer than one,
and the positions drawn for a random one round into the files. -/
def OnBlocks (cfg : FileConfig) : IoCall → Prop
  | .seq _ => min cfg.requestSize cfg.fileSize = cfg.blockSize
  | .rnd draws _ => ∀ d ∈ draws, d < cfg.totalSize ∧ RoundsIntoFiles cfg d

/-- Behind a boundary inside the file there is a whole block. -/
theorem WholeBlocks.block_fits (h : WholeBlocks cfg) {pos : ℕ} (hpos : cfg.blockSize ∣ pos)
    (hlt : pos < cfg.fileSize) : pos + cfg.blockSize ≤ cfg.fileSize := by
  have hle := Nat.le_of_dvd (by omega) (Nat.dvd_sub h.dvd hpos)
  omega

theorem block_disjoint {b x y : ℕ} (hx : b ∣ x) (hy : b ∣ y) (hne : x ≠ y) :
    x + b ≤ y ∨ y + b ≤ x := by
  rcases Nat.lt_or_gt_of_ne hne with hlt | hlt
  · left
    have hle := Nat.le_of_dvd (by omega) (Nat.dvd_sub hy hx)
    omega
  · right
    have hle := Nat.le_of_dvd (by omega) (Nat.dvd_sub hx hy)
    omega

/-- Every block of a file below `size` is sealed with its own offset. -/
def FileSealed (crc32 : Crc32) (cfg : FileConfig) (file : List UInt8)
    (size : ℕ) : Prop :=
  file.length = size ∧
    ∀ pos, cfg.blockSize ∣ pos → pos < size → Sealed crc32 (pread file pos cfg.blockSize) pos

/-- Every file has its full size, and all its blocks are sealed. -/
def BlocksSealed (crc32 : Crc32) (cfg : FileConfig)
    (files : ℕ → List UInt8) : Prop :=
  ∀ i, i < cfg.numFiles → FileSealed crc32 cfg (files i) cfg.fileSize

theorem FileSealed.append {file block : List UInt8} {size : ℕ}
    (h : FileSealed crc32 cfg file size) (hb : 0 < cfg.blockSize) (hsize : cfg.blockSize ∣ size)
    (hlen : block.length = cfg.blockSize) (hblock : Sealed crc32 block size) :
    FileSealed crc32 cfg (file ++ block) (size + cfg.blockSize) := by
  obtain ⟨hfile, hsealed⟩ := h
  refine ⟨by rw [length_append, hfile, hlen], ?_⟩
  intro pos hpos hlt
  by_cases hnew : pos = size
  · subst hnew
    rw [← hlen, ← hfile, pread_append_right]
    rw [hfile]
    exact hblock
  · -- An older block ends before the new one begins.
    have hold : pos + cfg.blockSize ≤ size := by
      rcases block_disjoint hpos hsize hnew with h | h
      · exact h
      · omega
    rw [pread_append_left (by omega)]
    exact hsealed pos hpos (by omega)

theorem FileSealed.pwrite {file block : List UInt8} {size off : ℕ}
    (h : FileSealed crc32 cfg file size) (hoff : cfg.blockSize ∣ off)
    (hfit : off + cfg.blockSize ≤ size) (hlen : block.length = cfg.blockSize)
    (hblock : Sealed crc32 block off) :
    FileSealed crc32 cfg (pwrite 0 file off block) size := by
  obtain ⟨hfile, hsealed⟩ := h
  have hroom : off + block.length ≤ file.length := by omega
  refine ⟨by rw [length_pwrite hroom, hfile], ?_⟩
  intro pos hpos hlt
  by_cases hsame : pos = off
  · subst hsame
    rw [← hlen, pread_pwrite hroom]
    exact hblock
  · rw [pread_pwrite_of_disjoint hroom (by rw [hlen]; exact block_disjoint hpos hoff hsame)]
    exact hsealed pos hpos hlt

variable (hcfg : Accepted cfg) (hw : WholeBlocks cfg) (hvalidate : g.validate = true)

/-! ### Making the files -/

section Create

include hcfg hw hvalidate

theorem createBlocks_sealed (rand : ℕ → ℕ → UInt8) {fuel offset : ℕ} {buf file : List UInt8}
    (hfuel : cfg.fileSize - offset ≤ fuel) (hoffset : cfg.blockSize ∣ offset)
    (hle : offset ≤ cfg.fileSize) (hbuf : buf.length = cfg.requestSize)
    (hfile : FileSealed crc32 cfg file offset) :
    ∃ buf' file', createBlocks crc32 rand g cfg fuel offset buf file = .ok (buf', file') ∧
      buf'.length = cfg.requestSize ∧ FileSealed crc32 cfg file' cfg.fileSize := by
  induction fuel generalizing offset buf file with
  | zero =>
    have hend : offset = cfg.fileSize := by omega
    subst hend
    exact ⟨buf, file, rfl, hbuf, hfile⟩
  | succ fuel ih =>
    by_cases hmore : offset < cfg.fileSize
    · have hroom := hw.block_fits hoffset hmore
      have hblock := hcfg.blockSize_lt
      have hpos := hcfg.blockSize_pos
      obtain ⟨buf', hfill, hbuf', hsealed⟩ :=
        fileFillBuffer_sealed crc32 (rand offset) offset hw.trailer_le
          (hbuf ▸ hw.le_requestSize) (by omega)
      have hlen : (buf'.take cfg.blockSize).length = cfg.blockSize := by
        have := hw.le_requestSize
        rw [length_take]
        omega
      have hfile' := hfile.append hpos hoffset hlen hsealed
      have hnext := ih (by omega) (Nat.dvd_add hoffset (Nat.dvd_refl _)) hroom
        (hbuf'.trans hbuf) hfile'
      rw [createBlocks, if_pos hmore, fillForWrite, if_pos hvalidate, hfill]
      exact hnext
    · have hend : offset = cfg.fileSize := by omega
      rw [createBlocks, if_neg hmore]
      subst hend
      exact ⟨buf, file, rfl, hbuf, hfile⟩

theorem createFilesFrom_sealed (rand : ℕ → ℕ → ℕ → UInt8) {n i : ℕ}
    (hbuf : buf.length = cfg.requestSize)
    (hdone : ∀ j, j < i → FileSealed crc32 cfg (files j) cfg.fileSize)
    (hempty : ∀ j, i ≤ j → files j = []) :
    ∃ files', createFilesFrom crc32 rand g cfg n i buf files = .ok files' ∧
      ∀ j, j < i + n → FileSealed crc32 cfg (files' j) cfg.fileSize := by
  induction n generalizing i buf files with
  | zero => exact ⟨files, rfl, hdone⟩
  | succ n ih =>
    have hstart : FileSealed crc32 cfg (files i) 0 := by
      rw [hempty i (Nat.le_refl i)]
      exact ⟨rfl, nofun⟩
    obtain ⟨buf', file', hloop, hbuf', hfile'⟩ :=
      createBlocks_sealed hcfg hw hvalidate (rand i) (Nat.le_refl _) (Nat.dvd_zero _)
        (Nat.zero_le _) hbuf hstart
    have hdone' : ∀ j, j < i + 1 →
        FileSealed crc32 cfg (update files i file' j) cfg.fileSize := by
      intro j hj
      by_cases hji : j = i
      · subst hji
        rw [update_self]
        exact hfile'
      · rw [update_of_ne hji]
        exact hdone j (by omega)
    have hempty' : ∀ j, i + 1 ≤ j → update files i file' j = [] := by
      intro j hj
      rw [update_of_ne (by omega)]
      exact hempty j (by omega)
    obtain ⟨files', hrest, hsealed⟩ := ih hbuf' hdone' hempty'
    refine ⟨files', ?_, fun j hj => hsealed j (by omega)⟩
    rw [createFilesFrom, hstart.1, hloop]
    exact hrest

theorem createFiles_sealed (crc32 : Crc32) (rand : ℕ → ℕ → ℕ → UInt8) :
    ∃ files, createFiles crc32 rand g cfg (fun _ => []) = .ok files ∧
      BlocksSealed crc32 cfg files := by
  have hnone : ∀ j, j < 0 → FileSealed crc32 cfg [] cfg.fileSize := nofun
  obtain ⟨files, hfiles, hsealed⟩ := createFilesFrom_sealed (n := cfg.numFiles) hcfg hw
    hvalidate rand length_replicate hnone (fun _ _ => rfl)
  exact ⟨files, hfiles, fun i hi => hsealed i (by omega)⟩

end Create

/-! ### Executing a request -/

/-- A read or a write of one block of a file. -/
structure DataBlock (cfg : FileConfig) (r : FileRequest) : Prop where
  isData : r.IsData
  fileId_lt : r.fileId < cfg.numFiles
  size_eq : r.size = cfg.blockSize
  dvd_pos : cfg.blockSize ∣ r.pos
  pos_lt : r.pos < cfg.fileSize

/-- The sync of a file. -/
structure SyncRequest (cfg : FileConfig) (r : FileRequest) : Prop where
  operation : r.operation = .fsync
  fileId_lt : r.fileId < cfg.numFiles
  empty : r.pos + r.size = 0

/-- What is on disk, and the buffer of the thread. -/
structure StoreInv (crc32 : Crc32) (cfg : FileConfig) (thread : ℕ)
    (s : IoState) : Prop where
  blocks : BlocksSealed crc32 cfg s.files
  buffer : (s.buffers thread).length = cfg.requestSize

section Execute

variable {rand : ℕ → UInt8} {s : IoState} {thread : ℕ} {r : FileRequest}

/-- Statistics touch neither files nor buffers, nor the generator. -/
def SameStore (s s' : IoState) : Prop :=
  s'.files = s.files ∧ s'.buffers = s.buffers ∧ s'.gen = s.gen

theorem countRequest_sameStore (s : IoState) (op bytes : SbCounterType) (size : ℕ) :
    SameStore s (countRequest cfg s thread op bytes size) := by
  unfold countRequest
  split <;> exact ⟨rfl, rfl, rfl⟩

theorem SameStore.storeInv {s' : IoState} (h : SameStore s s')
    (hs : StoreInv crc32 cfg thread s) : StoreInv crc32 cfg thread s' :=
  ⟨h.1 ▸ hs.blocks, h.2.1 ▸ hs.buffer⟩

include hcfg hw hvalidate

theorem executeWrite_done (hs : StoreInv crc32 cfg thread s) (hr : DataBlock cfg r) :
    ∃ s', executeWrite crc32 rand g cfg s thread r = .ok (s', .done) ∧
      StoreInv crc32 cfg thread s' ∧ s'.gen = s.gen := by
  have hblock := hcfg.blockSize_lt
  have hsize := hr.size_eq
  have hlen : r.size % 2 ^ 32 = cfg.blockSize := by omega
  obtain ⟨buf, hfill, hbuf, hsealed⟩ := fileFillBuffer_sealed crc32 rand r.pos hw.trailer_le
    (hs.buffer ▸ hw.le_requestSize) (by omega)
  have htake : (buf.take cfg.blockSize).length = cfg.blockSize := by
    have := hw.le_requestSize
    have := hs.buffer
    rw [length_take]
    omega
  -- The state behind the write, before the statistics.
  have hstore : StoreInv crc32 cfg thread { s with
      buffers := update s.buffers thread buf
      files := update s.files r.fileId
        (pwrite 0 (s.files r.fileId) r.pos (buf.take r.size)) } := by
    refine ⟨?_, ?_⟩
    · intro i hi
      by_cases hri : i = r.fileId
      · subst hri
        show FileSealed crc32 cfg (update s.files r.fileId _ r.fileId) cfg.fileSize
        rw [update_self, hsize]
        exact (hs.blocks _ hi).pwrite hr.dvd_pos (hw.block_fits hr.dvd_pos hr.pos_lt) htake
          hsealed
      · show FileSealed crc32 cfg (update s.files r.fileId _ i) cfg.fileSize
        rw [update_of_ne hri]
        exact hs.blocks i hi
    · show (update s.buffers thread buf thread).length = cfg.requestSize
      rw [update_self]
      exact hbuf.trans hs.buffer
  rw [executeWrite, fillForWrite, if_pos hvalidate, hlen, hfill]
  refine ⟨_, rfl, ?_, ?_⟩
  · refine (countRequest_sameStore _ _ _ _).storeInv ?_
    split
    · exact ⟨hstore.blocks, hstore.buffer⟩
    · exact hstore
  · refine (countRequest_sameStore _ _ _ _).2.2.trans ?_
    split <;> rfl

theorem executeRead_done (hs : StoreInv crc32 cfg thread s) (hr : DataBlock cfg r) :
    ∃ s', executeRead crc32 g cfg s thread r = .ok (s', .done) ∧
      StoreInv crc32 cfg thread s' ∧ s'.gen = s.gen := by
  have hblock := hcfg.blockSize_lt
  have hsize := hr.size_eq
  have hlen : r.size % 2 ^ 32 = r.size := by omega
  have hfits := hw.block_fits hr.dvd_pos hr.pos_lt
  have hroom := hw.le_requestSize
  have hbuffer := hs.buffer
  obtain ⟨hfile, hsealed⟩ := hs.blocks r.fileId hr.fileId_lt
  have hsealed := hsealed r.pos hr.dvd_pos hr.pos_lt
  have hread : (pread (s.files r.fileId) r.pos r.size).length = r.size := by
    rw [length_pread]
    omega
  rw [← hsize] at hsealed
  have hoffset : r.pos < 2 ^ 64 := by
    have hle := Nat.div_le_self cfg.totalSize cfg.numFiles
    have htotal := hcfg.totalSize_lt
    rw [← hcfg.fileSize_eq] at hle
    omega
  unfold executeRead
  generalize pread (s.files r.fileId) r.pos r.size = bytes at hread hsealed ⊢
  have hbuf : (bytes ++ (s.buffers thread).drop bytes.length).length = cfg.requestSize := by
    rw [length_append, length_drop]
    omega
  have hvalid : fileValidateBuffer crc32 (bytes ++ (s.buffers thread).drop bytes.length) r.size
      r.pos = .ok .valid := by
    refine fileValidateBuffer_valid (hsize ▸ hw.trailer_le) (by omega) (by omega) hoffset ?_
    rw [← hread, take_left]
    exact hsealed
  have hstore : StoreInv crc32 cfg thread { s with
      buffers := update s.buffers thread
        (bytes ++ (s.buffers thread).drop bytes.length) } := by
    refine ⟨hs.blocks, ?_⟩
    show (update s.buffers thread _ thread).length = cfg.requestSize
    rw [update_self]
    exact hbuf
  rw [if_neg (not_not.mpr hread), if_pos hvalidate, hlen, hvalid]
  refine ⟨_, rfl, (countRequest_sameStore _ _ _ _).storeInv hstore, ?_⟩
  exact (countRequest_sameStore _ _ _ _).2.2

theorem fileExecuteEvent_done (hs : StoreInv crc32 cfg thread s)
    (hr : DataBlock cfg r ∨ SyncRequest cfg r) :
    ∃ s', fileExecuteEvent crc32 rand g cfg s thread r = .ok (s', .done) ∧
      StoreInv crc32 cfg thread s' ∧ s'.gen = s.gen := by
  unfold fileExecuteEvent
  rcases hr with hr | hr
  · have hfile := hr.fileId_lt
    have hfits := hw.block_fits hr.dvd_pos hr.pos_lt
    have hsize := hr.size_eq
    rw [if_neg (by omega), if_neg (by omega), if_neg (by omega)]
    rcases hr.isData with hop | hop
    · rw [hop]
      exact executeRead_done hcfg hw hvalidate hs hr
    · rw [hop]
      exact executeWrite_done hcfg hw hvalidate hs hr
  · have hfile := hr.fileId_lt
    have hempty := hr.empty
    rw [if_neg (by omega), if_neg (by omega), if_neg (by omega), hr.operation]
    refine ⟨_, rfl, ?_, ?_⟩
    · split
      · exact hs
      · exact ⟨hs.blocks, hs.buffer⟩
    · split <;> rfl

end Execute

/-! ### Generating one -/

/-- The generator stands at the start of a block. -/
structure GenInv (cfg : FileConfig) (s : FileState) : Prop where
  fsyncedFile_lt : s.fsyncedFile < cfg.numFiles
  at_block : ∃ done pos, SeqAt cfg s done pos ∧ cfg.blockSize ∣ pos ∧ pos < cfg.fileSize

section Generate

variable {s : FileState}

include hcfg

theorem GenInv.fsyncRequest (h : GenInv cfg s) :
    SyncRequest cfg (fsyncRequest cfg s).1 ∧ GenInv cfg (fsyncRequest cfg s).2 := by
  obtain ⟨done, pos, hat, hpos, hlt⟩ := h.at_block
  refine ⟨⟨rfl, h.fsyncedFile_lt, rfl⟩, ?_, done, pos, fsyncRequest_seqAt hat, hpos, hlt⟩
  exact fsyncRequest_fsyncedFile_lt hcfg.numFiles_pos h.fsyncedFile_lt

include hw

theorem genInv_initVars (perThread : ℕ → PerThread) : GenInv cfg (initVars perThread) :=
  ⟨hcfg.numFiles_pos, 0, 0, seqAt_initVars perThread, Nat.dvd_zero _, hw.fileSize_pos⟩

/-- A sequential request is a block, and leads to the next one. -/
theorem GenInv.seq (g : Globals)
    (hone : min cfg.requestSize cfg.fileSize = cfg.blockSize) (h : GenInv cfg s) :
    (DataBlock cfg (fileGetSeqRequest g cfg s).1 ∨ SyncRequest cfg (fileGetSeqRequest g cfg s).1) ∧
      GenInv cfg (fileGetSeqRequest g cfg s).2 := by
  obtain ⟨done, pos, hat, hpos, hlt⟩ := h.at_block
  have hsynced := fileGetSeqRequest_fsyncedFile_lt (g := g) hcfg.numFiles_pos h.fsyncedFile_lt
  have hfits := hw.block_fits hpos hlt
  -- With one block a file, the position is the start of it.
  have hsize : min cfg.requestSize (cfg.fileSize - pos) = cfg.blockSize := by
    omega
  rcases fileGetSeqRequest_cases g hcfg.numFiles_pos hat with hsync | ⟨hr, hstate⟩
  · rw [hsync]
    obtain ⟨hreq, hnext⟩ := h.fsyncRequest hcfg
    exact ⟨.inr hreq, hnext⟩
  · rw [hsize] at hr hstate
    refine ⟨.inl ?_, hsynced, ?_⟩
    · rw [hr]
      exact ⟨seqOperation_isData cfg, Nat.mod_lt _ hcfg.numFiles_pos, rfl, hpos, hlt⟩
    · split at hstate
      · exact ⟨done + 1, 0, hstate, Nat.dvd_zero _, hw.fileSize_pos⟩
      · exact ⟨done, _, hstate, Nat.dvd_add hpos (Nat.dvd_refl _), by omega⟩

theorem rndDataRequest_block {operation : FileOp}
    (hop : operation = .read ∨ operation = .write) {tmppos : ℕ}
    (hdraw : tmppos < cfg.totalSize) (h : RoundsIntoFiles cfg tmppos) :
    ∃ r, rndDataRequest cfg operation tmppos = .ok r ∧ DataBlock cfg r := by
  have hb := hcfg.blockSize_pos
  have hf := hw.fileSize_pos
  have hround : cfg.blockSize ∣ roundToBlock cfg tmppos := Nat.dvd_sub_mod tmppos
  have hpos : cfg.blockSize ∣ roundToBlock cfg tmppos % cfg.fileSize :=
    (Nat.dvd_mod_iff hw.dvd).mpr hround
  have hlt := Nat.mod_lt (roundToBlock cfg tmppos) hf
  have hfits := hw.block_fits hpos hlt
  have hle := roundToBlock_le cfg tmppos
  refine ⟨_, if_neg (by omega), hop, ?_, ?_, hpos, hlt⟩
  · exact (fileId_lt_iff hcfg hf (by omega)).mpr h.2
  · exact Nat.min_eq_left (by omega)

theorem GenInv.rnd (quotient : UInt64 → UInt64 → ℚ) (g : Globals) (counters : SbCounters)
    (thread : ℕ) (h : GenInv cfg s)
    {draws : List ℕ} (hdraws : ∀ d ∈ draws, d < cfg.totalSize ∧ RoundsIntoFiles cfg d) :
    fileGetRndRequest quotient g cfg counters s thread draws = .ok none ∨
      ∃ r s', fileGetRndRequest quotient g cfg counters s thread draws = .ok (some (r, s')) ∧
        (DataBlock cfg r ∨ SyncRequest cfg r) ∧ GenInv cfg s' := by
  have hreq (d : ℕ) (hd : d ∈ draws) := rndDataRequest_block hcfg hw
    (rndOperation_isData quotient cfg counters) (hdraws d hd).1 (hdraws d hd).2
  rcases fileGetRndRequest_spec g s thread hreq with hcall | hcall | ⟨r, hr, hcall⟩
  · obtain ⟨hsync, hnext⟩ := h.fsyncRequest hcfg
    exact .inr ⟨_, _, hcall, .inr hsync, hnext⟩
  · exact .inl hcall
  · obtain ⟨done, pos, hat, hpos, hlt⟩ := h.at_block
    refine .inr ⟨r, _, hcall, .inl hr, h.fsyncedFile_lt, done, pos, ?_, hpos, hlt⟩
    exact hat.congr rfl rfl

end Generate

/-! ### Runs -/

/-- What holds between two requests. -/
structure IoInv (crc32 : Crc32) (cfg : FileConfig) (thread : ℕ)
    (s : IoState) : Prop where
  store : StoreInv crc32 cfg thread s
  gen : GenInv cfg s.gen

section Run

variable {thread : ℕ} {s : IoState}

include hcfg hw

theorem ioInv_ioStart (perThread : ℕ → PerThread)
    (hfiles : BlocksSealed crc32 cfg files) :
    IoInv crc32 cfg thread (ioStart cfg perThread files) :=
  ⟨⟨hfiles, length_replicate⟩, genInv_initVars hcfg hw perThread⟩

include hvalidate

/-- The request is generated in a state that differs only in the generator. -/
theorem IoInv.execute {rand : ℕ → UInt8} {r : FileRequest} {gen : FileState}
    (h : IoInv crc32 cfg thread s) (hgen : GenInv cfg gen)
    (hr : DataBlock cfg r ∨ SyncRequest cfg r) :
    ∃ s', fileExecuteEvent crc32 rand g cfg { s with gen := gen } thread r = .ok (s', .done) ∧
      IoInv crc32 cfg thread s' := by
  have hstore : StoreInv crc32 cfg thread { s with gen := gen } :=
    ⟨h.store.blocks, h.store.buffer⟩
  obtain ⟨s', hcall, hs', hgen'⟩ := fileExecuteEvent_done hcfg hw hvalidate hstore hr
  exact ⟨s', hcall, hs', hgen'.symm ▸ hgen⟩

theorem IoInv.step (quotient : UInt64 → UInt64 → ℚ)
    (h : IoInv crc32 cfg thread s) {c : IoCall} (hc : OnBlocks cfg c) :
    ∃ s', ioStep crc32 quotient g cfg thread s c = .ok (s', .done) ∧
      IoInv crc32 cfg thread s' := by
  cases c with
  | seq rand =>
    obtain ⟨hr, hgen⟩ := h.gen.seq hcfg hw g hc
    exact h.execute hcfg hw hvalidate hgen hr
  | rnd draws rand =>
    rcases h.gen.rnd hcfg hw quotient g (s.counters thread) thread hc with
      hcall | ⟨r, gen, hcall, hr, hgen⟩
    · refine ⟨s, ?_, h⟩
      rw [ioStep, hcall]
      rfl
    · rw [ioStep, hcall]
      exact h.execute hcfg hw hvalidate hgen hr

theorem IoInv.run (quotient : UInt64 → UInt64 → ℚ)
    (h : IoInv crc32 cfg thread s) {calls : List IoCall}
    (hcalls : ∀ c ∈ calls, OnBlocks cfg c) :
    ∃ s' statuses, Runs.trace (ioStep crc32 quotient g cfg thread) s calls = .ok (s', statuses) ∧
      ∀ status ∈ statuses, status = .done := by
  induction calls generalizing s with
  | nil => exact ⟨s, [], rfl, nofun⟩
  | cons c calls ih =>
    obtain ⟨s₁, hstep, h₁⟩ := h.step hcfg hw hvalidate quotient (hcalls c mem_cons_self)
    obtain ⟨s₂, statuses, hrest, hdone⟩ := ih h₁ fun c' hc' =>
      hcalls c' (mem_cons_of_mem _ hc')
    refine ⟨s₂, .done :: statuses, Runs.trace_cons hstep hrest, ?_⟩
    intro status hst
    rcases mem_cons.mp hst with hst | hst
    · exact hst
    · exact hdone status hst

end Run

/-- **Validation succeeds on whole blocks.** Where blocks have room for the trailer, files
consist of whole blocks and the buffer holds one, `create_files` with `--validate` and every
run of requests for single blocks behind it goes through without an index out of range, and
every request is done: no check fails.  The requests may come from either generator in any
order; checksum, random bytes and the rounding of the read/write ratio are arbitrary. -/
theorem validation_succeeds (memalign : ℕ → Bool) (g : Globals) (o : FileOptions)
    (cfg : FileConfig) (hparse : parseArguments memalign g o = .ok cfg)
    (hvalidate : g.validate = true) (hw : WholeBlocks cfg) (crc32 : Crc32)
    (rand : ℕ → ℕ → ℕ → UInt8) (quotient : UInt64 → UInt64 → ℚ)
    (perThread : ℕ → PerThread) :
    ∃ files, createFiles crc32 rand g cfg (fun _ => []) = .ok files ∧
      ∀ calls : List IoCall,
        (∀ c ∈ calls, OnBlocks cfg c) →
        ∃ s statuses, Runs.trace (ioStep crc32 quotient g cfg 0) (ioStart cfg perThread files)
            calls = .ok (s, statuses) ∧
          ∀ status ∈ statuses, status = .done := by
  have hcfg := parseArguments_accepted hparse
  obtain ⟨files, hcreate, hfiles⟩ := createFiles_sealed hcfg hw hvalidate crc32 rand
  refine ⟨files, hcreate, fun calls hcalls => ?_⟩
  exact (ioInv_ioStart hcfg hw perThread hfiles).run hcfg hw hvalidate quotient hcalls

/-- Reading one file sequentially. -/
def readOptions (totalSize blockSize : UInt64) (merged : ℤ) : FileOptions :=
  { smallOptions 1 totalSize with
    fileTestMode := some "seqrd", fileBlockSize := blockSize, fileMergedRequests := merged }

/-- What `parse_arguments` makes of them. -/
def readConfig (totalSize blockSize merged requestSize : ℕ) : FileConfig :=
  { smallConfig 1 totalSize totalSize with
    testMode := .read, blockSize := blockSize, mergedRequests := merged,
    requestSize := requestSize }

/-- The statuses of some reads behind `create_files`, with a checksum that is always 0 and
random bytes that are always 1. -/
def readStatuses (cfg : FileConfig) (reads : ℕ) : Except IoFault (List EventStatus) := do
  let g : Globals := ⟨"run", 1, true⟩
  let files ← createFiles (fun _ => 0) (fun _ _ _ => 1) g cfg (fun _ => [])
  let (_, statuses) ← Runs.trace (ioStep (fun _ => 0) (fun _ _ => 1) g cfg 0)
    (ioStart cfg (fun _ => ⟨0, 0⟩) files) (List.replicate reads (.seq fun _ => 1))
  pure statuses

theorem validation_succeeds_two_blocks :
    parseArguments (fun _ => true) ⟨"run", 1, true⟩ (readOptions 32 16 0)
        = .ok (readConfig 32 16 0 16) ∧
      ∃ files, createFiles (fun _ => 0) (fun _ _ _ => 1) ⟨"run", 1, true⟩ (readConfig 32 16 0 16)
          (fun _ => []) = .ok files ∧
        ∃ s statuses, Runs.trace
            (ioStep (fun _ => 0) (fun _ _ => 1) ⟨"run", 1, true⟩ (readConfig 32 16 0 16) 0)
            (ioStart (readConfig 32 16 0 16) (fun _ => ⟨0, 0⟩) files)
            [.seq fun _ => 1, .rnd [17] fun _ => 1] = .ok (s, statuses) ∧
          ∀ status ∈ statuses, status = .done := by
  have hparse : parseArguments (fun _ => true) ⟨"run", 1, true⟩ (readOptions 32 16 0)
      = .ok (readConfig 32 16 0 16) := by decide +kernel
  have hw : WholeBlocks (readConfig 32 16 0 16) :=
    ⟨by decide, by decide, by decide, by decide⟩
  have hdraw : RoundsIntoFiles (readConfig 32 16 0 16) 17 := by decide
  obtain ⟨files, hcreate, hrun⟩ := validation_succeeds _ _ _ _ hparse rfl hw (fun _ => 0)
    (fun _ _ _ => 1) (fun _ _ => 1) (fun _ => ⟨0, 0⟩)
  refine ⟨hparse, files, hcreate, hrun _ ?_⟩
  refine List.forall_mem_cons.mpr ⟨rfl, List.forall_mem_singleton.mpr ?_⟩
  exact List.forall_mem_singleton.mpr ⟨by decide, hdraw⟩

/-- Files of 28 bytes in blocks of 16 end with a read of 12 bytes that looks for the trailer
inside a block; reads of two merged blocks look for the trailer of one; and blocks of 8 bytes
have no room for a trailer. -/
theorem validation_fails_on_sizes :
    (parseArguments (fun _ => true) ⟨"run", 1, true⟩ (readOptions 28 16 0)
        = .ok (readConfig 28 16 0 16) ∧
      readStatuses (readConfig 28 16 0 16) 2 = .ok [.done, .validationFailed]) ∧
    (parseArguments (fun _ => true) ⟨"run", 1, true⟩ (readOptions 32 16 2)
        = .ok (readConfig 32 16 2 32) ∧
      readStatuses (readConfig 32 16 2 32) 1 = .ok [.validationFailed]) ∧
    (parseArguments (fun _ => true) ⟨"run", 1, true⟩ (readOptions 16 8 0)
        = .ok (readConfig 16 8 0 8) ∧
      readStatuses (readConfig 16 8 0 8) 0 = .error .bufferIndex) := by
  decide +kernel

end Sysbench.FileIo
