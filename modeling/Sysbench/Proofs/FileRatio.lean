/-
Reads and writes of the combined random test.

A thread compares its own two counters with `file-rw-ratio` when it starts to generate a
request, and counts the request when it has been executed.  Nobody else writes these
counters, so what is decided stays right until then, whatever the other threads do to the
variables they share and however many fsyncs come in between: `RatioInv` carries the
decision along with the two bounds.
-/
import Mathlib.Algebra.Order.Field.Basic
import Mathlib.Tactic.Linarith
import Sysbench.Proofs.FileFsync
import Sysbench.Model.FileThreads

namespace Sysbench.FileIo

open Function

variable {crc32 : Crc32} {g : Globals} {cfg : FileConfig} {thread : ℕ}

/-! ### The operation under way -/

/-- The operation of the request that is being generated. -/
def RndPhase.operation : RndPhase → FileOp
  | .idle => .null
  | .readDirty operation | .readPerformed operation | .draw operation => operation
  | .readFsynced | .loadFsynced _ | .storeFsynced _ _ | .compareFsynced _ | .resetFsynced _
  | .resetDirty _ => .fsync
  | .scanFile r _ | .scanPos r _ | .publishFile r | .publishPos r | .loadPerformed r
  | .storePerformed r _ | .setDirty r | .unlock r => r.operation

/-- Once chosen, the operation stays, unless the request becomes an fsync. -/
theorem rndAdvance_operation {quotient : UInt64 → UInt64 → ℚ} {e : RndEvent} {s : FileState}
    {p : RndPhase} (hp : p ≠ .idle) :
    (rndAdvance quotient g cfg e s p).2.operation = p.operation ∨
      (rndAdvance quotient g cfg e s p).2.operation = .fsync := by
  cases p with
  | idle => exact absurd rfl hp
  | draw operation =>
    rw [rndAdvance]
    split
    · exact .inl rfl
    · rename_i r hr
      have hop : r.operation = operation := rndDataRequest_operation hr
      split
      · exact .inl hop
      · exact .inl hop
  | _ =>
    unfold rndAdvance
    dsimp only
    repeat' split
    all_goals first | exact .inl rfl | exact .inr rfl

/-! ### Counters -/

theorem count_counters (s : IoState) (t t' : SbCounterType) (n : UInt64) :
    (s.count thread t n).counters thread t'
      = if t' = t then s.counters thread t' + n else s.counters thread t' := by
  show update s.counters thread _ thread t' = _
  rw [update_self, update_apply]
  split
  · rename_i h
    rw [h]
  · rfl

/-- How much a request that ended like this adds to the counter of an operation. -/
def counted (status : EventStatus) (r : FileRequest) (operation : FileOp) : ℕ :=
  if status = .done ∧ r.operation = operation then 1 else 0

/-- What `file_execute_event` does to the thread's counters of reads and writes. -/
def CountsAs (thread : ℕ) (r : FileRequest) (s : IoState) (result : IoState × EventStatus) : Prop :=
  result.1.counters thread .read
      = s.counters thread .read + UInt64.ofNat (counted result.2 r .read) ∧
    result.1.counters thread .write
      = s.counters thread .write + UInt64.ofNat (counted result.2 r .write)

variable {s : IoState} {r : FileRequest} {result : IoState × EventStatus}

theorem CountsAs.of_same (hread : result.1.counters thread .read = s.counters thread .read)
    (hwrite : result.1.counters thread .write = s.counters thread .write)
    (h : result.2 ≠ .done ∨ r.operation = .fsync) : CountsAs thread r s result := by
  have hnone (operation : FileOp) (hop : operation ≠ .fsync) :
      counted result.2 r operation = 0 := by
    refine if_neg ?_
    rintro ⟨hdone, hr⟩
    rcases h with h | h
    · exact h hdone
    · exact hop (hr.symm.trans h)
  refine ⟨?_, ?_⟩
  · rw [hread, hnone .read (by decide)]
    exact (UInt64.add_zero _).symm
  · rw [hwrite, hnone .write (by decide)]
    exact (UInt64.add_zero _).symm

theorem fileFsync_counters (s : IoState) {t : SbCounterType} (ht : t ≠ .other) :
    (fileFsync s thread).counters thread t = s.counters thread t := by
  rw [fileFsync, count_counters, if_neg ht]

theorem countRequest_counters (hsync : cfg.ioMode = .sync) (s : IoState)
    (op bytes t : SbCounterType) (ht : t ≠ bytes) (size : ℕ) :
    (countRequest cfg s thread op bytes size).counters thread t
      = s.counters thread t + if t = op then 1 else 0 := by
  have hmode : ¬cfg.ioMode = .async := by
    rw [hsync]
    decide
  rw [countRequest, if_neg hmode, count_counters, if_neg ht, count_counters]
  split
  · rfl
  · exact (UInt64.add_zero _).symm

theorem executeWrite_counts (hsync : cfg.ioMode = .sync) {rand : ℕ → UInt8}
    (hop : r.operation = .write) (h : executeWrite crc32 rand g cfg s thread r = .ok result) :
    CountsAs thread r s result := by
  obtain ⟨buf, -, h⟩ := Runs.bind_eq_ok.mp h
  cases h
  have hsame (s' : IoState) {t : SbCounterType} (ht : t ≠ .other) :
      (if cfg.fsyncAll then fileFsync s' thread else s').counters thread t
        = s'.counters thread t := by
    split
    · exact fileFsync_counters s' ht
    · rfl
  refine ⟨?_, ?_⟩
  · rw [countRequest_counters hsync _ _ _ _ (by decide), hsame _ (by decide), counted, hop]
    rfl
  · rw [countRequest_counters hsync _ _ _ _ (by decide), hsame _ (by decide), counted, hop]
    rfl

theorem executeRead_counts (hsync : cfg.ioMode = .sync) (hop : r.operation = .read)
    (h : executeRead crc32 g cfg s thread r = .ok result) : CountsAs thread r s result := by
  have hdone (s' : IoState) (hcounters : s'.counters = s.counters) : CountsAs thread r s
      (countRequest cfg s' thread .read .bytesRead r.size, .done) := by
    refine ⟨?_, ?_⟩
    · rw [countRequest_counters hsync _ _ _ _ (by decide), counted, hop, hcounters]
      rfl
    · rw [countRequest_counters hsync _ _ _ _ (by decide), counted, hop, hcounters]
      rfl
  unfold executeRead at h
  dsimp only at h
  split at h
  · cases h
    exact CountsAs.of_same rfl rfl (.inl nofun)
  · split at h
    · obtain ⟨check, -, h⟩ := Runs.bind_eq_ok.mp h
      cases check with
      | valid =>
        cases h
        exact hdone _ rfl
      | checksumMismatch | offsetMismatch =>
        cases h
        exact CountsAs.of_same rfl rfl (.inl nofun)
    · cases h
      exact hdone _ rfl

theorem fileExecuteEvent_counts (hsync : cfg.ioMode = .sync) {rand : ℕ → UInt8}
    (h : fileExecuteEvent crc32 rand g cfg s thread r = .ok result) :
    CountsAs thread r s result := by
  unfold fileExecuteEvent at h
  split at h
  · cases h
    exact CountsAs.of_same rfl rfl (.inl nofun)
  split at h
  · cases h
    exact CountsAs.of_same rfl rfl (.inl nofun)
  split at h
  · cases h
  cases hop : r.operation with
  | null =>
    rw [hop] at h
    cases h
    exact CountsAs.of_same rfl rfl (.inl nofun)
  | write =>
    rw [hop] at h
    exact executeWrite_counts hsync hop h
  | read =>
    rw [hop] at h
    exact executeRead_counts hsync hop h
  | fsync =>
    rw [hop] at h
    cases h
    refine CountsAs.of_same ?_ ?_ (.inr hop)
    · split
      · rfl
      · exact fileFsync_counters s (by decide)
    · split
      · rfl
      · exact fileFsync_counters s (by decide)

/-! ### The two bounds -/

/-- The comparison that an operation was chosen by. -/
def Chosen (ratio : ℚ) (reads writes : ℕ) : FileOp → Prop
  | .read => (reads : ℚ) + 1 < ratio * (writes + 1)
  | .write => ratio * (writes + 1) ≤ (reads : ℚ) + 1
  | _ => True

/-- The counts are within the bounds, and a request under way will keep them there. -/
structure InRatio (ratio : ℚ) (t : RwThread) : Prop where
  writes_le : t.writes = 0 ∨ ratio * t.writes ≤ t.reads + 1
  reads_lt : t.reads = 0 ∨ (t.reads : ℚ) < ratio * (t.writes + 1)
  chosen : Chosen ratio t.reads t.writes t.phase.operation

/-- The counters hold the counts, which are within the bounds as long as no counter wraps. -/
structure RatioInv (ratio : ℚ) (t : RwThread) : Prop where
  inRatio : t.reads < 2 ^ 64 → t.writes < 2 ^ 64 → InRatio ratio t
  read_counter : t.counters .read = UInt64.ofNat t.reads
  write_counter : t.counters .write = UInt64.ofNat t.writes

variable {ratio : ℚ} {t : RwThread}

theorem chosen_rndOperation (hmode : cfg.testMode = .rndRw) (h : RatioInv ratio t)
    (hreads : t.reads < 2 ^ 64) (hwrites : t.writes < 2 ^ 64) :
    Chosen cfg.rwRatio t.reads t.writes (rndOperation exactQuotient cfg t.counters) := by
  have hpos : (0 : ℚ) < t.writes + 1 := by positivity
  have hquotient : exactQuotient (t.counters .read) (t.counters .write)
      = (t.reads + 1) / (t.writes + 1) := by
    rw [h.read_counter, h.write_counter, exactQuotient, UInt64.toNat_ofNat_of_lt' hreads,
      UInt64.toNat_ofNat_of_lt' hwrites]
  rw [rndOperation, if_pos hmode, hquotient]
  by_cases hlt : ((t.reads : ℚ) + 1) / (t.writes + 1) < cfg.rwRatio
  · rw [if_pos hlt]
    exact (div_lt_iff₀ hpos).mp hlt
  · rw [if_neg hlt]
    exact (le_div_iff₀ hpos).mp (not_lt.mp hlt)

theorem Chosen.advance {reads writes : ℕ} {op op' : FileOp} (h : Chosen ratio reads writes op)
    (hop : op' = op ∨ op' = .fsync) : Chosen ratio reads writes op' := by
  rcases hop with rfl | rfl
  · exact h
  · trivial

theorem RatioInv.read (h : RatioInv ratio t) (hop : t.phase.operation = .read)
    {counters : SbCounters} (hread : counters .read = t.counters .read + 1)
    (hwrite : counters .write = t.counters .write) :
    RatioInv ratio ⟨.idle, counters, t.reads + 1, t.writes⟩ where
  inRatio := by
    intro hreads hwrites
    obtain ⟨hle, -, hchosen⟩ := h.inRatio (Nat.lt_of_succ_lt hreads) hwrites
    rw [hop] at hchosen
    refine ⟨hle.imp_right fun hle => ?_, .inr ?_, trivial⟩
    · push_cast
      linarith
    · push_cast
      exact hchosen
  read_counter := by
    show counters .read = UInt64.ofNat (t.reads + 1)
    rw [hread, h.read_counter, UInt64.ofNat_add]
    rfl
  write_counter := hwrite.trans h.write_counter

theorem RatioInv.write (hratio : 0 ≤ ratio) (h : RatioInv ratio t)
    (hop : t.phase.operation = .write) {counters : SbCounters}
    (hread : counters .read = t.counters .read) (hwrite : counters .write = t.counters .write + 1) :
    RatioInv ratio ⟨.idle, counters, t.reads, t.writes + 1⟩ where
  inRatio := by
    intro hreads hwrites
    obtain ⟨-, hlt, hchosen⟩ := h.inRatio hreads (Nat.lt_of_succ_lt hwrites)
    rw [hop] at hchosen
    refine ⟨.inr ?_, hlt.imp_right fun hlt => ?_, trivial⟩
    · push_cast
      exact hchosen
    · push_cast
      calc (t.reads : ℚ) < ratio * (t.writes + 1) := hlt
        _ ≤ ratio * (t.writes + 1 + 1) := mul_le_mul_of_nonneg_left (by linarith) hratio
  read_counter := hread.trans h.read_counter
  write_counter := by
    show counters .write = UInt64.ofNat (t.writes + 1)
    rw [hwrite, h.write_counter, UInt64.ofNat_add]
    rfl

/-- A step of the generator leaves the counts alone, and the decision with them. -/
theorem RatioInv.advance (hmode : cfg.testMode = .rndRw) (h : RatioInv cfg.rwRatio t)
    (turn : RwTurn) :
    RatioInv cfg.rwRatio { t with
      phase := (rndAdvance exactQuotient g cfg ⟨thread, t.counters, turn.tmppos⟩ turn.shared
        t.phase).2 } := by
  refine { h with inRatio := fun hreads hwrites => ?_ }
  have hin := h.inRatio hreads hwrites
  refine { hin with chosen := ?_ }
  by_cases hidle : t.phase = .idle
  · have hrandom : ¬cfg.testMode.sequential = true := by
      rw [hmode]
      decide
    have hchosen := chosen_rndOperation hmode h hreads hwrites
    rw [hidle, rndAdvance, if_neg hrandom]
    exact hchosen
  · exact hin.chosen.advance (rndAdvance_operation hidle)

theorem rwStep_ratioInv (hmode : cfg.testMode = .rndRw) (hsync : cfg.ioMode = .sync)
    (hratio : 0 ≤ cfg.rwRatio) {t' : RwThread} {turn : RwTurn} {status : Option EventStatus}
    (h : RatioInv cfg.rwRatio t) (hstep : rwStep crc32 g cfg thread t turn = .ok (t', status)) :
    RatioInv cfg.rwRatio t' := by
  unfold rwStep at hstep
  split at hstep
  · rename_i r hphase
    obtain ⟨⟨io, status⟩, hexec, hstep⟩ := Runs.bind_eq_ok.mp hstep
    cases hstep
    obtain ⟨hread, hwrite⟩ := fileExecuteEvent_counts hsync hexec
    simp only [update_self] at hread hwrite
    have hop : t.phase.operation = r.operation := congrArg RndPhase.operation hphase
    by_cases hr : status = .done ∧ r.operation = .read
    · have hw : ¬(status = .done ∧ r.operation = .write) := fun hw => nomatch hr.2.symm.trans hw.2
      rw [counted, if_pos hr] at hread
      rw [counted, if_neg hw] at hwrite
      rw [if_pos hr, if_neg hw]
      exact h.read (hop.trans hr.2) hread (hwrite.trans (UInt64.add_zero _))
    · rw [counted, if_neg hr] at hread
      rw [if_neg hr]
      by_cases hw : status = .done ∧ r.operation = .write
      · rw [counted, if_pos hw] at hwrite
        rw [if_pos hw]
        exact h.write hratio (hop.trans hw.2) (hread.trans (UInt64.add_zero _)) hwrite
      · rw [counted, if_neg hw] at hwrite
        rw [if_neg hw]
        exact {
          inRatio := fun hreads hwrites => { h.inRatio hreads hwrites with chosen := trivial }
          read_counter := (hread.trans (UInt64.add_zero _)).trans h.read_counter
          write_counter := (hwrite.trans (UInt64.add_zero _)).trans h.write_counter }
  · cases hstep
    exact h.advance hmode turn

/-- In every state of a thread of the combined test, whatever it finds at its steps: the counts of
its reads and writes, as long as they fit the counters, and that the counters hold them. -/
theorem rw_ratio_kept (crc32 : Crc32) (g : Globals) (cfg : FileConfig) (thread : ℕ)
    (hmode : cfg.testMode = .rndRw) (hsync : cfg.ioMode = .sync) (hratio : 0 ≤ cfg.rwRatio)
    (t : RwThread) (h : Runs.Reach (rwStep crc32 g cfg thread) (fun _ _ => True) rwStart t) :
    (t.reads < 2 ^ 64 → t.writes < 2 ^ 64 →
      (t.writes = 0 ∨ cfg.rwRatio * t.writes ≤ t.reads + 1) ∧
        (t.reads = 0 ∨ (t.reads : ℚ) < cfg.rwRatio * (t.writes + 1))) ∧
      t.counters .read = UInt64.ofNat t.reads ∧ t.counters .write = UInt64.ofNat t.writes := by
  have hstart : RatioInv cfg.rwRatio rwStart :=
    ⟨fun _ _ => ⟨.inl rfl, .inl rfl, trivial⟩, rfl, rfl⟩
  have hinv := h.invariant hstart fun ht _ hstep => rwStep_ratioInv hmode hsync hratio ht hstep
  refine ⟨fun hreads hwrites => ?_, hinv.read_counter, hinv.write_counter⟩
  have hin := hinv.inRatio hreads hwrites
  exact ⟨hin.writes_le, hin.reads_lt⟩

/-- Three files of four bytes each, read and written byte by byte. -/
def rwConfig : FileConfig where
  numFiles := 3
  totalSize := 12
  fileSize := 4
  testMode := .rndRw
  blockSize := 1
  requestSize := 1
  fsyncFreq := 2

/-- The thread finds the variables as they were at the start, but for `is_dirty`. -/
def turnFinding (dirty : Bool) : RwTurn where
  shared := { initVars (fun _ => ⟨0, 0⟩) with isDirty := dirty }
  io := ioStart rwConfig (fun _ => ⟨0, 0⟩) fun _ => [1, 2, 3, 4]
  tmppos := 5
  rand := fun _ => 0

/-- A read, an fsync, and a write. -/
def readFsyncWrite : List RwTurn :=
  List.replicate 8 (turnFinding false) ++ List.replicate 8 (turnFinding true) ++
    List.replicate 9 (turnFinding false)

theorem a_read_an_fsync_and_a_write :
    ∃ t, Runs.Reach (rwStep (fun _ => 0) ⟨"run", 1, false⟩ rwConfig 0) (fun _ _ => True) rwStart t ∧
      t.reads = 1 ∧ t.writes = 1 ∧ t.counters .other = 1 ∧
      rwConfig.rwRatio * t.writes ≤ t.reads + 1 ∧ (t.reads : ℚ) < rwConfig.rwRatio * (t.writes + 1)
      := by
  have hrun : ((Runs.trace (rwStep (fun _ => 0) ⟨"run", 1, false⟩ rwConfig 0) rwStart
      readFsyncWrite).toOption.any fun p =>
        p.1.reads = 1 ∧ p.1.writes = 1 ∧ p.1.counters .other = 1) = true := by
    decide +kernel
  obtain ⟨⟨t, statuses⟩, htrace, hcounts⟩ := Runs.exists_ok_of_any hrun
  obtain ⟨hreads, hwrites, hother⟩ := of_decide_eq_true hcounts
  have hreach := Runs.Reach.refl.of_trace htrace
  obtain ⟨hkept, -⟩ := rw_ratio_kept _ _ _ _ rfl rfl (by decide +kernel) t hreach
  obtain ⟨hw, hr⟩ := hkept (by rw [hreads]; decide) (by rw [hwrites]; decide)
  refine ⟨t, hreach, hreads, hwrites, hother, ?_, ?_⟩
  · exact hw.resolve_left (by rw [hwrites]; decide)
  · exact hr.resolve_left (by rw [hreads]; decide)

end Sysbench.FileIo
