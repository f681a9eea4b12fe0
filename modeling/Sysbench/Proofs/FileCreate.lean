/-
What `create_files` reports, and what it has written.

The loop over a file counts blocks, not bytes, so its course does not depend on what `write`
returns, as long as that is no error: `blocksFor` is the number of its rounds.  `Extended`
says what a loop leaves behind and `Filled` what a run over several files does; in both,
the files have grown by what `write` took and `written` by whole blocks.
-/
import Mathlib.Algebra.BigOperators.Intervals
import Mathlib.Algebra.Order.BigOperators.Group.Finset
import Sysbench.Lib.Runs
import Sysbench.Model.FileCreate

namespace Sysbench.FileIo

variable {crc32 : Crc32} {rand : ℕ → ℕ → ℕ → UInt8} {g : Globals}
  {cfg : FileConfig} {disk : Disk cfg.blockSize} {i n fuel offset : ℕ} {s s' : CreateState}

/-- How many blocks a file of a length still needs. -/
def blocksFor (cfg : FileConfig) (length : ℕ) : ℕ :=
  (cfg.fileSize - length + (cfg.blockSize - 1)) / cfg.blockSize

/-- How often `write` is called if no call fails. -/
def writeCalls (cfg : FileConfig) (files : ℕ → List UInt8) : ℕ :=
  ∑ i ∈ Finset.range cfg.numFiles, blocksFor cfg (files i).length

/-- How many bytes the calls from number `a` up to `b` have taken. -/
def transferred {size : ℕ} (disk : Disk size) (a b : ℕ) : ℕ :=
  ∑ k ∈ Finset.Ico a b, (disk.write k).getD 0

theorem blocksFor_of_le (h : cfg.fileSize ≤ offset) : blocksFor cfg offset = 0 := by
  unfold blocksFor
  rcases Nat.eq_zero_or_pos cfg.blockSize with hzero | hpos
  · rw [hzero, Nat.div_zero]
  · exact Nat.div_eq_of_lt (by omega)

theorem blocksFor_of_lt (hblock : 0 < cfg.blockSize) (h : offset < cfg.fileSize) :
    blocksFor cfg offset = blocksFor cfg (offset + cfg.blockSize) + 1 := by
  by_cases hlast : cfg.fileSize ≤ offset + cfg.blockSize
  · rw [blocksFor_of_le hlast]
    unfold blocksFor
    rw [Nat.div_eq_iff hblock]
    omega
  · unfold blocksFor
    have hsplit : cfg.fileSize - offset + (cfg.blockSize - 1)
        = cfg.fileSize - (offset + cfg.blockSize) + (cfg.blockSize - 1) + cfg.blockSize := by
      omega
    rw [hsplit, Nat.add_div_right _ hblock]

/-- As many blocks as that fill a file up. -/
theorem fileSize_le_of_blocks (hblock : 0 < cfg.blockSize) (length : ℕ) :
    cfg.fileSize ≤ length + blocksFor cfg length * cfg.blockSize := by
  have h := Nat.lt_div_mul_add (a := cfg.fileSize - length + (cfg.blockSize - 1)) hblock
  unfold blocksFor
  omega

theorem transferred_step {size : ℕ} (disk : Disk size) {a b : ℕ} (h : a < b) :
    transferred disk a b = (disk.write a).getD 0 + transferred disk (a + 1) b :=
  Finset.sum_eq_sum_Ico_succ_bot h _

theorem transferred_trans {size : ℕ} (disk : Disk size) {a b c : ℕ} (hab : a ≤ b) (hbc : b ≤ c) :
    transferred disk a b + transferred disk b c = transferred disk a c :=
  Finset.sum_Ico_consecutive _ hab hbc

theorem transferred_eq_iff {size : ℕ} (disk : Disk size) (n : ℕ)
    (hsome : ∀ k < n, ∃ m, disk.write k = some m) :
    transferred disk 0 n = n * size ↔ ∀ k < n, disk.write k = some size := by
  have hle : ∀ k ∈ Finset.Ico 0 n, (disk.write k).getD 0 ≤ size := by
    intro k hk
    obtain ⟨m, hm⟩ := hsome k (Finset.mem_Ico.mp hk).2
    rw [hm]
    exact (disk.write_bounds k m hm).2
  have hconst : n * size = ∑ _k ∈ Finset.Ico 0 n, size := by
    rw [Finset.sum_const, Nat.card_Ico, Nat.sub_zero, Nat.nsmul_eq_mul]
  unfold transferred
  rw [hconst, Finset.sum_eq_sum_iff_of_le hle]
  constructor
  · intro h k hk
    obtain ⟨m, hm⟩ := hsome k hk
    have heq := h k (Finset.mem_Ico.mpr ⟨Nat.zero_le k, hk⟩)
    rw [hm] at heq
    rw [hm, ← heq]
    rfl
  · intro h k hk
    rw [h k (Finset.mem_Ico.mp hk).2]
    rfl

/-! ### One file -/

/-- What a round does if it comes to its end: one call, one block more in the count, and in the
file what `write` took. -/
theorem writeBlock_eq_ok (h : writeBlock crc32 rand g cfg disk i offset s = .ok s') :
    ∃ buf m, fillForWrite crc32 (rand i offset) g s.buf cfg.blockSize offset = .ok buf ∧
      cfg.blockSize ≤ buf.length ∧ disk.write s.calls = some m ∧
      s' = { s with
        buf := buf
        calls := s.calls + 1
        written := s.written + cfg.blockSize
        files := Function.update s.files i (s.files i ++ buf.take m) } := by
  obtain ⟨buf, hbuf, h⟩ := Runs.bind_eq_ok.mp h
  by_cases hshort : buf.length < cfg.blockSize
  · rw [if_pos hshort] at h
    cases h
  rw [if_neg hshort] at h
  have hfill : fillForWrite crc32 (rand i offset) g s.buf cfg.blockSize offset = .ok buf := by
    cases hfill : fillForWrite crc32 (rand i offset) g s.buf cfg.blockSize offset with
    | error f =>
      rw [hfill] at hbuf
      cases hbuf
    | ok buf' =>
      rw [hfill] at hbuf
      cases hbuf
      rfl
  cases hwrite : disk.write s.calls with
  | none =>
    rw [hwrite] at h
    cases h
  | some m =>
    simp only [hwrite] at h
    split at h
    · cases h
    · cases h
      exact ⟨buf, m, hfill, Nat.not_lt.mp hshort, rfl, rfl⟩

/-- What the loop over file `i` has done, from an offset on. -/
structure Extended (cfg : FileConfig) (disk : Disk cfg.blockSize) (i offset : ℕ)
    (s s' : CreateState) : Prop where
  calls_eq : s'.calls = s.calls + blocksFor cfg offset
  written_eq : s'.written = s.written + blocksFor cfg offset * cfg.blockSize
  length_eq : (s'.files i).length = (s.files i).length + transferred disk s.calls s'.calls
  unchanged : ∀ j, j ≠ i → s'.files j = s.files j
  succeeded : ∀ k, s.calls ≤ k → k < s'.calls → ∃ m, disk.write k = some m
  blockSize_pos : offset < cfg.fileSize → 0 < cfg.blockSize

theorem Extended.of_le (h : cfg.fileSize ≤ offset) : Extended cfg disk i offset s s where
  calls_eq := by rw [blocksFor_of_le h, Nat.add_zero]
  written_eq := by rw [blocksFor_of_le h, Nat.zero_mul, Nat.add_zero]
  length_eq := by
    unfold transferred
    rw [Finset.Ico_self, Finset.sum_empty, Nat.add_zero]
  unchanged := fun _ _ => rfl
  succeeded := fun _ hk hk' => absurd hk' (Nat.not_lt.mpr hk)
  blockSize_pos := fun hlt => absurd hlt (Nat.not_lt.mpr h)

theorem Extended.step {t : CreateState} (hlt : offset < cfg.fileSize)
    (h : writeBlock crc32 rand g cfg disk i offset s = .ok t)
    (ht : Extended cfg disk i (offset + cfg.blockSize) t s') :
    Extended cfg disk i offset s s' := by
  obtain ⟨buf, m, -, hbuf, hm, rfl⟩ := writeBlock_eq_ok h
  obtain ⟨hm_pos, hm_le⟩ := disk.write_bounds _ m hm
  have hblock : 0 < cfg.blockSize := Nat.lt_of_lt_of_le hm_pos hm_le
  have hstep := blocksFor_of_lt hblock hlt
  have hcalls' := ht.calls_eq
  refine ⟨?_, ?_, ?_, ?_, ?_, fun _ => hblock⟩
  · simp only at hcalls'
    omega
  · rw [ht.written_eq, hstep, Nat.add_mul]
    simp only
    omega
  · simp only at hcalls'
    rw [ht.length_eq, transferred_step disk (by omega : s.calls < s'.calls), hm]
    simp only [Function.update_self, List.length_append, List.length_take, Option.getD_some]
    omega
  · intro j hj
    rw [ht.unchanged j hj]
    exact Function.update_of_ne hj _ _
  · intro k hk hk'
    rcases Nat.eq_or_lt_of_le hk with rfl | hk
    · exact ⟨m, hm⟩
    · exact ht.succeeded k hk hk'

theorem writeBlocks_extended
    (h : writeBlocks crc32 rand g cfg disk i fuel offset s = .ok s') :
    Extended cfg disk i offset s s' := by
  induction fuel generalizing offset s with
  | zero =>
    unfold writeBlocks at h
    by_cases hlt : offset < cfg.fileSize
    · rw [if_pos hlt] at h
      cases h
    · rw [if_neg hlt] at h
      cases h
      exact Extended.of_le (Nat.not_lt.mp hlt)
  | succ fuel ih =>
    unfold writeBlocks at h
    by_cases hlt : offset < cfg.fileSize
    · rw [if_pos hlt] at h
      obtain ⟨t, ht, h⟩ := Runs.bind_eq_ok.mp h
      exact Extended.step hlt ht (ih h)
    · rw [if_neg hlt] at h
      cases h
      exact Extended.of_le (Nat.not_lt.mp hlt)

/-! ### All files -/

/-- What a run over the files from `i` on has done. -/
structure Filled (cfg : FileConfig) (disk : Disk cfg.blockSize) (n i : ℕ) (s s' : CreateState) :
    Prop where
  calls_eq : s'.calls = s.calls + ∑ j ∈ Finset.range n, blocksFor cfg (s.files (i + j)).length
  written_eq : s'.written + s.calls * cfg.blockSize = s.written + s'.calls * cfg.blockSize
  lengths_eq : ∑ j ∈ Finset.range n, (s'.files (i + j)).length
    = ∑ j ∈ Finset.range n, (s.files (i + j)).length + transferred disk s.calls s'.calls
  unchanged : ∀ j, j < i ∨ i + n ≤ j → s'.files j = s.files j
  succeeded : ∀ k, s.calls ≤ k → k < s'.calls → ∃ m, disk.write k = some m
  grown : ∀ j, (s.files j).length ≤ (s'.files j).length
  complete : (∀ k, s.calls ≤ k → k < s'.calls → disk.write k = some cfg.blockSize) →
    ∀ j < n, cfg.fileSize ≤ (s'.files (i + j)).length

theorem Filled.refl (i : ℕ) (s : CreateState) : Filled cfg disk 0 i s s where
  calls_eq := rfl
  written_eq := rfl
  lengths_eq := by
    unfold transferred
    rw [Finset.Ico_self, Finset.sum_empty, Nat.add_zero]
  unchanged := fun _ _ => rfl
  succeeded := fun _ hk hk' => absurd hk' (Nat.not_lt.mpr hk)
  grown := fun _ => Nat.le_refl _
  complete := fun _ _ hj => absurd hj (Nat.not_lt_zero _)

theorem Extended.calls_le (h : Extended cfg disk i offset s s') :
    s.calls ≤ s'.calls := by
  rw [h.calls_eq]
  exact Nat.le_add_right _ _

theorem Filled.calls_le (h : Filled cfg disk n i s s') :
    s.calls ≤ s'.calls := by
  rw [h.calls_eq]
  exact Nat.le_add_right _ _

/-- A file that got all its blocks whole is complete. -/
theorem Extended.complete (h : Extended cfg disk i (s.files i).length s s')
    (hfull : ∀ k, s.calls ≤ k → k < s'.calls → disk.write k = some cfg.blockSize) :
    cfg.fileSize ≤ (s'.files i).length := by
  have hsum : transferred disk s.calls s'.calls
      = blocksFor cfg (s.files i).length * cfg.blockSize := by
    have hconst : transferred disk s.calls s'.calls
        = ∑ _k ∈ Finset.Ico s.calls s'.calls, cfg.blockSize := by
      refine Finset.sum_congr rfl fun k hk => ?_
      rw [hfull k (Finset.mem_Ico.mp hk).1 (Finset.mem_Ico.mp hk).2]
      rfl
    rw [hconst, Finset.sum_const, Nat.card_Ico, Nat.nsmul_eq_mul, h.calls_eq,
      Nat.add_sub_cancel_left]
  rw [h.length_eq, hsum]
  by_cases hlt : (s.files i).length < cfg.fileSize
  · exact fileSize_le_of_blocks (h.blockSize_pos hlt) _
  · exact Nat.le_trans (Nat.not_lt.mp hlt) (Nat.le_add_right _ _)

theorem Filled.cons {t : CreateState} (h : Extended cfg disk i (s.files i).length s t)
    (ht : Filled cfg disk n (i + 1) t s') : Filled cfg disk (n + 1) i s s' := by
  have hle := h.calls_le
  have hle' := ht.calls_le
  have hlater (j : ℕ) : t.files (i + 1 + j) = s.files (i + 1 + j) := h.unchanged _ (by omega)
  have hfirst : s'.files i = t.files i := ht.unchanged i (.inl (Nat.lt_succ_self i))
  have hshift (j : ℕ) : i + (j + 1) = i + 1 + j := by omega
  have hsum (f : List UInt8 → ℕ) : ∑ j ∈ Finset.range n, f (s.files (i + (j + 1)))
      = ∑ j ∈ Finset.range n, f (t.files (i + 1 + j)) :=
    Finset.sum_congr rfl fun j _ => by rw [hlater, hshift]
  refine ⟨?_, ?_, ?_, ?_, ?_, ?_, ?_⟩
  · rw [Finset.sum_range_succ', Nat.add_zero, ht.calls_eq, h.calls_eq,
      hsum fun file => blocksFor cfg file.length]
    omega
  · have hwritten := ht.written_eq
    rw [h.written_eq, h.calls_eq, Nat.add_mul] at hwritten
    omega
  · rw [Finset.sum_range_succ', Finset.sum_range_succ', Nat.add_zero, hfirst, h.length_eq,
      ← transferred_trans disk hle hle']
    have hrest := ht.lengths_eq
    have hsum' : ∑ j ∈ Finset.range n, (s'.files (i + (j + 1))).length
        = ∑ j ∈ Finset.range n, (s'.files (i + 1 + j)).length :=
      Finset.sum_congr rfl fun j _ => by rw [hshift]
    rw [hsum', hsum List.length]
    omega
  · intro j hj
    rw [ht.unchanged j (by omega), h.unchanged j (by omega)]
  · intro k hk hk'
    rcases Nat.lt_or_ge k t.calls with hkt | hkt
    · exact h.succeeded k hk hkt
    · exact ht.succeeded k hkt hk'
  · intro j
    refine Nat.le_trans ?_ (ht.grown j)
    by_cases hj : j = i
    · rw [hj, h.length_eq]
      exact Nat.le_add_right _ _
    · rw [h.unchanged j hj]
  · intro hfull j hj
    cases j with
    | zero =>
      rw [Nat.add_zero, hfirst]
      exact h.complete fun k hk hk' => hfull k hk (by omega)
    | succ j =>
      rw [hshift]
      exact ht.complete (fun k hk hk' => hfull k (by omega) hk') j (by omega)

theorem writeFiles_filled (h : writeFiles crc32 rand g cfg disk n i s = .ok s') :
    Filled cfg disk n i s s' := by
  induction n generalizing i s with
  | zero =>
    cases h
    exact Filled.refl i _
  | succ n ih =>
    unfold writeFiles at h
    by_cases hopen : disk.opens i = true
    · rw [if_pos hopen] at h
      obtain ⟨t, ht, h⟩ := Runs.bind_eq_ok.mp h
      have hext := writeBlocks_extended ht
      exact Filled.cons { hext with } (ih h)
    · rw [if_neg hopen] at h
      cases h

/-! ### The report -/

/-- What `create_files` returning 0 is to mean: no file is too short, and the report has the number
of bytes that the files have grown by. -/
structure Complete (cfg : FileConfig) (files : ℕ → List UInt8) (created : Created) : Prop where
  length_ge : ∀ i < cfg.numFiles, cfg.fileSize ≤ (created.files i).length
  reported_eq : created.reported.getD 0
    = ∑ i ∈ Finset.range cfg.numFiles, ((created.files i).length - (files i).length)

/-- Only with writes that take whole blocks is that so. -/
theorem create_files_complete_iff (crc32 : Crc32) (rand : ℕ → ℕ → ℕ → UInt8)
    (g : Globals) (cfg : FileConfig) (disk : Disk cfg.blockSize) (files : ℕ → List UInt8)
    (created : Created) (h : createFilesOn crc32 rand g cfg disk files = .ok created) :
    Complete cfg files created ↔
      ∀ k < writeCalls cfg files, disk.write k = some cfg.blockSize := by
  obtain ⟨s, hs, h⟩ := Runs.bind_eq_ok.mp h
  cases h
  have hfilled := writeFiles_filled hs
  have hcalls : s.calls = writeCalls cfg files := by
    have h := hfilled.calls_eq
    simp only [Nat.zero_add] at h
    exact h
  have hwritten : s.written = s.calls * cfg.blockSize := by
    have h := hfilled.written_eq
    simp only [Nat.zero_mul, Nat.add_zero, Nat.zero_add] at h
    exact h
  have hgrowth : ∑ i ∈ Finset.range cfg.numFiles, ((s.files i).length - (files i).length)
      = transferred disk 0 s.calls := by
    have h := hfilled.lengths_eq
    simp only [Nat.zero_add] at h
    rw [Finset.sum_tsub_distrib _ fun i _ => hfilled.grown i, h]
    exact Nat.add_sub_cancel_left _ _
  have hreported : (if 0 < s.written then some s.written else none).getD 0 = s.written := by
    split
    · rfl
    · simp only [Option.getD_none]
      omega
  have hiff := transferred_eq_iff disk s.calls fun k hk => hfilled.succeeded k (Nat.zero_le k) hk
  rw [← hcalls, ← hiff]
  constructor
  · intro hcomplete
    have heq := hcomplete.reported_eq
    rw [hgrowth, hreported, hwritten] at heq
    exact heq.symm
  · intro htransferred
    refine ⟨fun i hi => ?_, ?_⟩
    · have hlong := hfilled.complete (fun k _ hk => hiff.mp htransferred k hk) i hi
      rw [Nat.zero_add] at hlong
      exact hlong
    · rw [hgrowth, htransferred, hreported, hwritten]

/-- Two files of six bytes, in blocks of four. -/
def sixBytes : FileConfig where
  numFiles := 2
  totalSize := 12
  fileSize := 6
  testMode := .read
  blockSize := 4
  requestSize := 4

/-- The first file is new, the second one has five bytes. -/
def halfThere (i : ℕ) : List UInt8 :=
  if i = 1 then [1, 2, 3, 4, 5] else []

/-- Its second write takes `n` bytes, the others take all. -/
def diskTaking (n : ℕ) (hn : 1 ≤ n ∧ n ≤ 4) : Disk sixBytes.blockSize where
  opens := fun _ => true
  write := fun k => if k = 1 then some n else some 4
  write_bounds := by
    intro k m hm
    split at hm
    · cases hm
      exact hn
    · cases hm
      exact ⟨by decide, Nat.le_refl 4⟩

theorem whole_blocks_are_complete :
    ∃ created, createFilesOn (fun _ => 0) (fun _ _ _ => 0) ⟨"prepare", 1, false⟩ sixBytes
      (diskTaking 4 (by decide)) halfThere = .ok created ∧ Complete sixBytes halfThere created := by
  have hok : (createFilesOn (fun _ => 0) (fun _ _ _ => 0) ⟨"prepare", 1, false⟩ sixBytes
      (diskTaking 4 ⟨Nat.le_add_left 1 3, Nat.le_refl 4⟩) halfThere).isOk = true := by decide
  obtain ⟨created, h⟩ := Runs.exists_ok hok
  refine ⟨created, h, ?_⟩
  apply (create_files_complete_iff _ _ _ _ _ _ _ h).mpr
  intro k _
  show (if k = 1 then some 4 else some 4) = some 4
  rw [ite_self]

/-- One short write: the file stays too short, and twelve bytes are reported for nine. -/
theorem short_write_goes_unnoticed :
    ∃ created, createFilesOn (fun _ => 0) (fun _ _ _ => 0) ⟨"prepare", 1, false⟩ sixBytes
      (diskTaking 1 (by decide)) halfThere = .ok created ∧ (created.files 0).length = 5 ∧
      (created.files 1).length = 9 ∧ created.reported = some 12 ∧
      ¬Complete sixBytes halfThere created := by
  refine ⟨_, rfl, by decide, by decide, by decide, ?_⟩
  intro h
  have hlong : 6 ≤ 5 := h.length_ge 0 (by decide)
  exact nomatch hlong

end Sysbench.FileIo
