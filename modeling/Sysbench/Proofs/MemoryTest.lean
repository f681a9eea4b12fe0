/-
Which words the sequential events of the memory test access.

`max_offset` is the position of the last word.  The loop of `event_seq_none` goes on up to and
with it, those of `event_seq_read` and `event_seq_write` stop before it: they leave out the
last word of every block, and a block of one word altogether.  The report counts whole blocks
all the same.

The size requested for a buffer in huge pages is computed with a wrong mask: see
`huge_page_requests`.
-/
import Sysbench.Lib.Runs
import Sysbench.Model.MemoryTest

namespace Sysbench.MemoryTest

open List

variable {p : Platform} {threads : ℕ} {o : MemoryOptions} {cfg : MemoryConfig}

/-! ### The loops -/

theorem whileBelow_eq_range' (stop buf : ℕ) :
    whileBelow stop buf = range' buf (stop - buf) := by
  induction hn : stop - buf generalizing buf with
  | zero =>
    rw [whileBelow, if_neg (by omega)]
    rfl
  | succ n ih =>
    rw [whileBelow, if_pos (by omega), ih (buf + 1) (by omega), range'_succ]

theorem whileUpTo_eq_whileBelow (stop buf : ℕ) :
    whileUpTo stop buf = whileBelow (stop + 1) buf := by
  induction hn : stop + 1 - buf generalizing buf with
  | zero => rw [whileUpTo, whileBelow, if_neg (by omega), if_neg (by omega)]
  | succ n ih =>
    rw [whileUpTo, whileBelow, if_pos (by omega), if_pos (by omega), ih (buf + 1) (by omega)]

theorem whileBelow_zero (stop : ℕ) : whileBelow stop 0 = range stop := by
  rw [whileBelow_eq_range', Nat.sub_zero, range_eq_range']

theorem whileUpTo_zero (stop : ℕ) : whileUpTo stop 0 = range (stop + 1) := by
  rw [whileUpTo_eq_whileBelow, whileBelow_zero]

/-! ### What is accepted -/

/-- The number of words in a block. -/
def words (p : Platform) (cfg : MemoryConfig) : ℕ :=
  cfg.memoryBlockSize / p.wordSize

theorem Platform.wordSize_pos (p : Platform) : 0 < p.wordSize := by
  rcases p.wordSize_eq with h | h
  · omega
  · omega

/-- What `memory_init` leaves in the variables if it accepts the options. -/
structure Stored (p : Platform) (threads : ℕ) (o : MemoryOptions) (cfg : MemoryConfig) : Prop where
  blockSize_eq : (cfg.memoryBlockSize : ℤ)
    = (o.memoryBlockSize.toNat : ℤ).bmod (2 ^ (8 * p.wordSize))
  blockSize_ge : p.wordSize ≤ cfg.memoryBlockSize
  power_of_two : cfg.memoryBlockSize &&& (cfg.memoryBlockSize - 1) = 0
  maxOffset_eq : cfg.maxOffset = cfg.memoryBlockSize / p.wordSize - 1
  totalSize_eq : cfg.memoryTotalSize = (o.memoryTotalSize.toNat : ℤ).bmod (2 ^ 64)
  threadCounter_eq : cfg.threadCounter
    = UInt64.ofInt ((cfg.memoryTotalSize.tdiv cfg.memoryBlockSize).tdiv threads)

theorem memoryInit_stored (h : memoryInit p threads o = .ok cfg) : Stored p threads o cfg := by
  obtain ⟨_, hblock, h⟩ := Runs.bind_eq_ok.mp h
  obtain ⟨scope, -, h⟩ := Runs.bind_eq_ok.mp h
  obtain ⟨oper, -, h⟩ := Runs.bind_eq_ok.mp h
  obtain ⟨rnd, -, h⟩ := Runs.bind_eq_ok.mp h
  obtain ⟨_, -, h⟩ := Runs.bind_eq_ok.mp h
  obtain ⟨_, -, h⟩ := Runs.bind_eq_ok.mp h
  obtain ⟨_, -, h⟩ := Runs.bind_eq_ok.mp h
  obtain ⟨hsize, hpower⟩ := not_or.mp (Runs.not_of_check hblock)
  generalize hblockSize : (o.memoryBlockSize.toNat : ℤ).bmod (2 ^ (8 * p.wordSize)) = size
    at hsize hpower h
  generalize htotalSize : (o.memoryTotalSize.toNat : ℤ).bmod (2 ^ 64) = total at h
  cases h
  have hnat : ((size.toNat : ℕ) : ℤ) = size := Int.toNat_of_nonneg (by omega)
  refine ⟨hnat.trans hblockSize.symm, ?_, not_not.mp hpower, rfl, htotalSize.symm, ?_⟩
  · show p.wordSize ≤ size.toNat
    omega
  · simp only [hnat]

/-- An accepted block has at least one word, and `max_offset` is the position of its last. -/
theorem maxOffset_of_accepted (h : memoryInit p threads o = .ok cfg) :
    cfg.maxOffset + 1 = words p cfg := by
  have hstored := memoryInit_stored h
  have hsize := hstored.blockSize_ge
  rw [hstored.maxOffset_eq]
  apply Nat.sub_add_cancel
  rw [Nat.le_div_iff_mul_le p.wordSize_pos, Nat.one_mul]
  exact hsize

/-! ### Events -/

/-- The position of an access. -/
def Access.word : Access → ℕ
  | .pass word => word
  | .load word => word
  | .store word _ => word

/-- Each word of the block is there once, and nothing else. -/
def TouchesBlock (p : Platform) (cfg : MemoryConfig) (accesses : List Access) : Prop :=
  ∀ word, (accesses.map Access.word).count word = if word < words p cfg then 1 else 0

theorem eventSeqNone_words (h : cfg.maxOffset + 1 = words p cfg) :
    (eventSeqNone cfg).map Access.word = range (words p cfg) := by
  rw [eventSeqNone, whileUpTo_zero, h, map_map]
  exact map_id _

theorem eventSeqRead_words : (eventSeqRead cfg).map Access.word = range cfg.maxOffset := by
  rw [eventSeqRead, whileBelow_zero, map_map]
  exact map_id _

theorem eventSeqWrite_words (tid : ℕ) :
    (eventSeqWrite cfg tid).map Access.word = range cfg.maxOffset := by
  rw [eventSeqWrite, whileBelow_zero, map_map]
  exact map_id _

theorem touchesBlock_of_range {accesses : List Access}
    (h : accesses.map Access.word = range (words p cfg)) : TouchesBlock p cfg accesses := by
  intro word
  rw [h, count_range]

/-- The last word is missing where the loop stops before `max_offset`. -/
theorem not_touchesBlock_of_range {accesses : List Access} (hlast : cfg.maxOffset + 1 = words p cfg)
    (h : accesses.map Access.word = range cfg.maxOffset) : ¬TouchesBlock p cfg accesses := by
  intro htouches
  have hcount := htouches cfg.maxOffset
  rw [h, count_range, if_neg (Nat.lt_irrefl _), if_pos (by omega)] at hcount
  exact absurd hcount (by decide)

theorem length_executeEvents (hseq : cfg.memoryAccessRnd = false) (hoper : cfg.memoryOper ≠ .none)
    (tid : ℕ) (rands : List (ℕ → ℕ)) :
    (executeEvents cfg tid rands).length = rands.length * cfg.maxOffset := by
  have hone (rand : ℕ → ℕ) : (executeEvent cfg rand tid).length = cfg.maxOffset := by
    unfold executeEvent
    rw [hseq]
    cases hop : cfg.memoryOper with
    | none => exact absurd hop hoper
    | read => simp [eventSeqRead, whileBelow_zero]
    | write => simp [eventSeqWrite, whileBelow_zero]
  induction rands with
  | nil => simp [executeEvents]
  | cons rand rands ih =>
    rw [executeEvents] at ih ⊢
    rw [flatMap_cons, length_append, ih, hone, length_cons, Nat.succ_mul]
    omega

/-- **The sequential events leave out the last word**, whatever block size was accepted: an event
without access passes over the whole block, one that reads or writes stops before its last word,
and the volume reported for any number of such events is more than what they accessed. -/
theorem seq_events_miss_last_word (p : Platform) (threads : ℕ) (o : MemoryOptions)
    (cfg : MemoryConfig) (h : memoryInit p threads o = .ok cfg) (tid : ℕ) :
    TouchesBlock p cfg (eventSeqNone cfg) ∧
      (eventSeqRead cfg).map Access.word = List.range (words p cfg - 1) ∧
      (eventSeqWrite cfg tid).map Access.word = List.range (words p cfg - 1) ∧
      ¬TouchesBlock p cfg (eventSeqRead cfg) ∧ ¬TouchesBlock p cfg (eventSeqWrite cfg tid) ∧
      ∀ rands, rands ≠ [] → cfg.memoryAccessRnd = false → cfg.memoryOper ≠ .none →
        (executeEvents cfg tid rands).length * p.wordSize < reportedBytes cfg rands.length := by
  have hlast := maxOffset_of_accepted h
  have hoffset : cfg.maxOffset = words p cfg - 1 := by omega
  refine ⟨touchesBlock_of_range (eventSeqNone_words hlast), ?_, ?_,
    not_touchesBlock_of_range hlast eventSeqRead_words,
    not_touchesBlock_of_range hlast (eventSeqWrite_words tid), ?_⟩
  · rw [eventSeqRead_words, hoffset]
  · rw [eventSeqWrite_words, hoffset]
  · intro rands hne hseq hoper
    rw [length_executeEvents hseq hoper, reportedBytes, Nat.mul_assoc]
    have hevents : 0 < rands.length := length_pos_iff.mpr hne
    apply Nat.mul_lt_mul_of_pos_left _ hevents
    have hblock : words p cfg * p.wordSize ≤ cfg.memoryBlockSize := Nat.div_mul_le_self _ _
    rw [← hlast, Nat.succ_mul] at hblock
    have hpos : 0 < p.wordSize := p.wordSize_pos
    omega

/-- A 64-bit system that has room for everything. -/
def roomy : Platform where
  wordSize := 8
  wordSize_eq := .inr rfl
  largePages := true
  memalign := fun _ _ => true
  hugetlbAlloc := fun _ _ => true
  malloc := fun _ => true

def readBlocks (blockSize : UInt64) : MemoryOptions where
  memoryBlockSize := blockSize
  memoryBlockSizeText := none
  memoryTotalSize := 0
  memoryScope := some "global"
  memoryHugetlb := false
  memoryOper := some "read"
  memoryAccessMode := some "seq"

def readingConfig (blockSize maxOffset : ℕ) : MemoryConfig where
  memoryBlockSize := blockSize
  maxOffset := maxOffset
  memoryTotalSize := 0
  memoryScope := .global
  memoryHugetlb := false
  memoryOper := .read
  memoryAccessRnd := false
  threadCounter := 0

theorem last_word_of_1K_is_missed :
    memoryInit roomy 1 (readBlocks 1024) = .ok (readingConfig 1024 127) ∧
      ¬TouchesBlock roomy (readingConfig 1024 127) (eventSeqRead (readingConfig 1024 127)) :=
  ⟨by decide +kernel,
    (seq_events_miss_last_word roomy 1 (readBlocks 1024) (readingConfig 1024 127)
      (by decide +kernel) 0).2.2.2.1⟩

/-- The smallest block has one word, and nothing is read of it. -/
theorem single_word_is_never_read :
    memoryInit roomy 1 (readBlocks 8) = .ok (readingConfig 8 0) ∧
      words roomy (readingConfig 8 0) = 1 ∧
      eventSeqNone (readingConfig 8 0) = [.pass 0] ∧ eventSeqRead (readingConfig 8 0) = [] ∧
      eventSeqWrite (readingConfig 8 0) 0 = [] ∧ reportedBytes (readingConfig 8 0) 3 = 24 := by
  refine ⟨by decide +kernel, by decide, ?_, ?_, ?_, by decide⟩
  · simp [eventSeqNone, whileUpTo, readingConfig]
  · simp [eventSeqRead, whileBelow, readingConfig]
  · simp [eventSeqWrite, whileBelow, readingConfig]

/-! ### Huge pages -/

/-- The mask clears one bit of the low ones, or none if that is above them. -/
theorem ones_and_not {w i k : ℕ} :
    (BitVec.ofNat w (2 ^ k - 1) &&& ~~~BitVec.ofNat w (2 ^ i)) + BitVec.ofNat w (2 ^ i)
      = if k ≤ i then BitVec.ofNat w (2 ^ k - 1) + BitVec.ofNat w (2 ^ i)
        else BitVec.ofNat w (2 ^ k - 1) := by
  split
  · congr 1
    refine BitVec.eq_of_getLsbD_eq fun j hj => ?_
    simp only [BitVec.getLsbD_and, BitVec.getLsbD_not, BitVec.getLsbD_ofNat,
      Nat.testBit_two_pow_sub_one, Nat.testBit_two_pow, hj, decide_true, Bool.true_and]
    by_cases hji : i = j
    · simp [hji, show ¬j < k by omega]
    · simp [hji]
  · rw [BitVec.add_eq_or_of_and_eq_zero]
    · refine BitVec.eq_of_getLsbD_eq fun j hj => ?_
      simp only [BitVec.getLsbD_or, BitVec.getLsbD_and, BitVec.getLsbD_not, BitVec.getLsbD_ofNat,
        Nat.testBit_two_pow_sub_one, Nat.testBit_two_pow, hj, decide_true, Bool.true_and]
      by_cases hji : i = j
      · simp [hji, show j < k by omega]
      · simp [hji]
    · refine BitVec.eq_of_getLsbD_eq fun j hj => ?_
      simp

theorem exists_two_pow {x : ℕ} (hx : 1 < x) (h : x &&& (x - 1) = 0) : ∃ k, x = 2 ^ (k + 1) := by
  refine ⟨(x - 1).log2, ?_⟩
  have hle : 2 ^ (x - 1).log2 ≤ x - 1 := Nat.log2_self_le (by omega)
  have hlt : x - 1 < 2 ^ ((x - 1).log2 + 1) := Nat.lt_log2_self
  by_contra hne
  have hbit := congrArg (Nat.testBit · (x - 1).log2) h
  simp only [Nat.testBit_and, Nat.zero_testBit] at hbit
  rw [Nat.testBit_of_two_pow_le_and_two_pow_add_one_gt (by omega) (by omega),
    Nat.testBit_of_two_pow_le_and_two_pow_add_one_gt hle hlt] at hbit
  cases hbit

/-- What is requested for a block of `2 ^ k` bytes. -/
theorem hugetlbRequest_two_pow {k : ℕ} (hk : k < 8 * p.wordSize) :
    hugetlbRequest p (2 ^ k) = if k ≤ 22 then 2 ^ k - 1 + largePageSize else 2 ^ k - 1 := by
  have hwidth : 2 ^ 32 ≤ 2 ^ (8 * p.wordSize) :=
    Nat.pow_le_pow_right (by decide) (by rcases p.wordSize_eq with h | h <;> omega)
  have hlt : 2 ^ k < 2 ^ (8 * p.wordSize) := Nat.pow_lt_pow_right (by decide) hk
  have hpos : 0 < 2 ^ k := Nat.two_pow_pos k
  have hones : BitVec.ofNat (8 * p.wordSize) (2 ^ k) - 1
      = BitVec.ofNat (8 * p.wordSize) (2 ^ k - 1) :=
    BitVec.ofNat_sub_ofNat_of_le (2 ^ k) 1 (by omega) hpos
  unfold hugetlbRequest
  simp only [hones]
  rw [show largePageSize = 2 ^ 22 from rfl, ones_and_not]
  split
  · rename_i hle
    have hle' : 2 ^ k ≤ 2 ^ 22 := Nat.pow_le_pow_right (by decide) hle
    rw [BitVec.toNat_add, BitVec.toNat_ofNat, BitVec.toNat_ofNat,
      Nat.mod_eq_of_lt (by omega : 2 ^ k - 1 < _), Nat.mod_eq_of_lt (by omega : 2 ^ 22 < _),
      Nat.mod_eq_of_lt (by omega)]
  · rw [BitVec.toNat_ofNat, Nat.mod_eq_of_lt (by omega)]

/-- **Huge pages.**  The mask is one bit and not a page: what is requested is never a multiple of
the page size, and for a block of more than a page it is a byte too small. -/
theorem huge_page_requests (h : memoryInit p threads o = .ok cfg) :
    ¬largePageSize ∣ hugetlbRequest p cfg.memoryBlockSize ∧
      (cfg.memoryBlockSize ≤ hugetlbRequest p cfg.memoryBlockSize ↔
        cfg.memoryBlockSize ≤ largePageSize) := by
  have hstored := memoryInit_stored h
  have hsize := hstored.blockSize_ge
  have hword := p.wordSize_eq
  obtain ⟨k, hk⟩ := exists_two_pow (by omega) hstored.power_of_two
  have hlt : 2 ^ (k + 1) < 2 ^ (8 * p.wordSize) := by
    have hbmod := Int.bmod_lt (x := (o.memoryBlockSize.toNat : ℤ))
      (Nat.two_pow_pos (8 * p.wordSize))
    rw [← hstored.blockSize_eq, hk] at hbmod
    have hpos := Nat.two_pow_pos (8 * p.wordSize)
    omega
  rw [hk, hugetlbRequest_two_pow ((Nat.pow_lt_pow_iff_right (by decide)).mp hlt), Nat.pow_succ]
  have hpos := Nat.two_pow_pos k
  unfold largePageSize
  split
  · rename_i hle
    have hle' : 2 ^ k ≤ 2 ^ 21 := Nat.pow_le_pow_right (by decide) (by omega)
    omega
  · rename_i hgt
    have hgt' : 2 ^ 22 ≤ 2 ^ k := Nat.pow_le_pow_right (by decide) (by omega)
    omega

/-- With `memory-hugetlb`. -/
def hugeBlocks (blockSize : UInt64) : MemoryOptions :=
  { readBlocks blockSize with memoryHugetlb := true }

def hugeConfig (blockSize maxOffset : ℕ) : MemoryConfig :=
  { readingConfig blockSize maxOffset with memoryHugetlb := true }

theorem four_kilobytes_request :
    ¬largePageSize ∣ hugetlbRequest roomy 4096 ∧ 4096 ≤ hugetlbRequest roomy 4096 := by
  have hinit : memoryInit roomy 1 (hugeBlocks 4096) = .ok (hugeConfig 4096 511) := by
    decide +kernel
  obtain ⟨hpages, hroom⟩ := huge_page_requests hinit
  exact ⟨hpages, hroom.mpr (by decide)⟩

theorem eight_megabytes_are_a_byte_short :
    memoryInit roomy 1 (hugeBlocks 8388608) = .ok (hugeConfig 8388608 1048575) ∧
      hugetlbRequest roomy 8388608 = 8388607 ∧ ¬largePageSize ∣ 8388607 :=
  ⟨by decide +kernel, by decide, by decide⟩

end Sysbench.MemoryTest
