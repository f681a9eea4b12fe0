/-
What becomes of random requests when threads interleave.

The generator gives `exec_mutex` back without having taken it, so it is never held, and the
claim that an unlock is made by the holder fails with the first call that returns.  Nothing
else keeps calls apart.  Where they happen not to overlap, though, the generator is right:
`PhaseOk` says of the one thread that is in a call what it has established so far, an index in
range or a block that no other thread works on, and the step after next relies on it.
-/
import Sysbench.Lib.Schedule
import Sysbench.Model.FileThreads
import Sysbench.Proofs.FileFsync

namespace Sysbench.FileIo

open List Function Schedule

variable {quotient : UInt64 → UInt64 → ℚ} {g : Globals} {cfg : FileConfig} {s : RndState}
  {e : RndEvent}

/-! ### The three properties -/

/-- Every unlock was made by the thread that held the mutex. -/
def UnlocksHeld (s : RndState) : Prop := ∀ u ∈ s.unlocks, u.2 = true

def FsyncsInRange (cfg : FileConfig) (s : RndState) : Prop :=
  ∀ p ∈ s.emitted, p.2.operation = .fsync → p.2.fileId < cfg.numFiles

/-- In validation mode, no two threads own the same block. -/
def BlocksExclusive (g : Globals) (s : RndState) : Prop :=
  g.validate = true → ∀ t t', t < g.threads → t' < g.threads → t ≠ t' →
    ∀ block, s.owned t = some block → s.owned t' ≠ some block

structure Protected (g : Globals) (cfg : FileConfig) (s : RndState) : Prop where
  unlocks : UnlocksHeld s
  fsyncs : FsyncsInRange cfg s
  blocks : BlocksExclusive g s

/-! ### Unlocks -/

/-- The thread is about to give the mutex back. -/
def AtUnlock (s : RndState) (e : RndEvent) : Prop := ∃ r, s.phase e.thread = .unlock r

variable {r : FileRequest}

theorem rndStep_unlock (h : s.phase e.thread = .unlock r) :
    rndStep quotient g cfg s e = s.unlock e.thread r := by
  rw [rndStep, h]

theorem rndStep_move (h : ¬AtUnlock s e) :
    rndStep quotient g cfg s e
      = s.move e.thread (rndAdvance quotient g cfg e s.shared (s.phase e.thread)) := by
  unfold rndStep
  split
  · rename_i r hphase
    exact absurd ⟨r, hphase⟩ h
  · rfl

/-- Nobody ever holds the mutex, so no unlock is made by its holder; and without an unlock no
request has been returned. -/
structure NeverLocked (s : RndState) : Prop where
  mutex : s.mutex = none
  unlocks : ∀ u ∈ s.unlocks, u.2 = false
  emitted : s.unlocks = [] → s.emitted = [] ∧ ∀ t, s.owned t = none

theorem neverLocked_start (perThread : ℕ → PerThread) : NeverLocked (rndStart perThread) where
  mutex := rfl
  unlocks := nofun
  emitted := fun _ => ⟨rfl, fun _ => rfl⟩

theorem NeverLocked.step (h : NeverLocked s) (e : RndEvent) :
    NeverLocked (rndStep quotient g cfg s e) := by
  by_cases hat : AtUnlock s e
  · obtain ⟨r, hr⟩ := hat
    rw [rndStep_unlock hr]
    refine ⟨rfl, fun u hu => ?_, fun hnil => ?_⟩
    · rcases mem_append.mp hu with hold | hnew
      · exact h.unlocks u hold
      · rw [mem_singleton.mp hnew, h.mutex]
        rfl
    · exact absurd hnil (append_ne_nil_of_right_ne_nil _ (cons_ne_nil _ _))
  · rw [rndStep_move hat]
    exact ⟨h.mutex, h.unlocks, h.emitted⟩

theorem NeverLocked.protected_iff (h : NeverLocked s) : Protected g cfg s ↔ s.unlocks = [] := by
  refine ⟨fun hprotected => ?_, fun hnil => ?_⟩
  · refine eq_nil_iff_forall_not_mem.mpr fun u hu => ?_
    exact Bool.false_ne_true ((h.unlocks u hu).symm.trans (hprotected.unlocks u hu))
  · obtain ⟨hemitted, howned⟩ := h.emitted hnil
    refine ⟨fun u hu => ?_, fun p hp => ?_, fun _ t _ _ _ _ block hblock => ?_⟩
    · rw [hnil] at hu
      cases hu
    · rw [hemitted] at hp
      cases hp
    · rw [howned] at hblock
      cases hblock

theorem NeverLocked.protected_step_iff (h : NeverLocked s) (hs : Protected g cfg s)
    (e : RndEvent) : Protected g cfg (rndStep quotient g cfg s e) ↔ ¬AtUnlock s e := by
  rw [(h.step e).protected_iff]
  by_cases hat : AtUnlock s e
  · obtain ⟨r, hr⟩ := hat
    rw [rndStep_unlock hr]
    refine iff_of_false ?_ (not_not.mpr ⟨r, hr⟩)
    exact append_ne_nil_of_right_ne_nil _ (cons_ne_nil _ _)
  · rw [rndStep_move hat]
    exact iff_of_true (h.protected_iff.mp hs) hat

/-! ### Calls that do not overlap -/

/-- No other thread is in a call. -/
def Alone (s : RndState) (e : RndEvent) : Prop := ∀ t, t ≠ e.thread → s.phase t = .idle

/-- The block in `per_thread`. -/
def FileState.block (s : FileState) (t : ℕ) : ℕ × ℕ :=
  ((s.perThread t).bufferFileId, (s.perThread t).bufferPos)

/-- In validation mode, no other of the first `n` threads works on the block of the request. -/
def FreeBelow (g : Globals) (s : FileState) (t : ℕ) (r : FileRequest) (n : ℕ) : Prop :=
  g.validate = true → ∀ i, i < n → i ≠ t → s.block i ≠ (r.fileId, r.pos)

/-- A thread that has a block is the one that `per_thread` says works on it. -/
def Owns (s : FileState) (owned : Option (ℕ × ℕ)) (t : ℕ) : Prop :=
  ∀ block, owned = some block → s.block t = block

/-- Data requests are reads and writes. -/
def DataOk : RndPhase → Prop
  | .readDirty operation | .readPerformed operation | .draw operation =>
    operation = .read ∨ operation = .write
  | .scanFile r _ | .scanPos r _ | .publishFile r | .publishPos r | .loadPerformed r
  | .storePerformed r _ | .setDirty r => r.IsData
  | _ => True

/-- What a thread that is alone in its call knows of the files to be synced. -/
def SyncOk (cfg : FileConfig) (s : FileState) : RndPhase → Prop
  | .loadFsynced fileId | .resetDirty fileId =>
    fileId < cfg.numFiles ∧ s.fsyncedFile < cfg.numFiles
  | .storeFsynced fileId value => fileId < cfg.numFiles ∧ value < cfg.numFiles
  | .compareFsynced fileId => fileId < cfg.numFiles ∧ s.fsyncedFile ≤ cfg.numFiles
  | .resetFsynced fileId => fileId < cfg.numFiles
  | .unlock r =>
    (r.operation = .fsync → r.fileId < cfg.numFiles) ∧ s.fsyncedFile < cfg.numFiles
  | _ => s.fsyncedFile < cfg.numFiles

/-- What a thread that is alone in its call knows of the blocks. -/
def BlockOk (g : Globals) (s : FileState) (owned : Option (ℕ × ℕ)) (t : ℕ) : RndPhase → Prop
  | .scanFile r i | .scanPos r i => Owns s owned t ∧ FreeBelow g s t r i
  | .publishFile r => Owns s owned t ∧ FreeBelow g s t r g.threads
  | .publishPos r => FreeBelow g s t r g.threads ∧ (s.perThread t).bufferFileId = r.fileId
  | .loadPerformed r | .storePerformed r _ | .setDirty r =>
    FreeBelow g s t r g.threads ∧ s.block t = (r.fileId, r.pos)
  | .unlock r =>
    (r.IsData → FreeBelow g s t r g.threads ∧ s.block t = (r.fileId, r.pos)) ∧
      (¬r.IsData → Owns s owned t)
  | _ => Owns s owned t

theorem not_isData_fsyncOf (fileId : ℕ) : ¬(fsyncOf fileId).IsData := by
  rintro (h | h)
  · cases h
  · cases h

/-- What holds of a thread that is alone in its call. -/
structure PhaseOk (g : Globals) (cfg : FileConfig) (s : FileState) (owned : Option (ℕ × ℕ))
    (t : ℕ) (p : RndPhase) : Prop where
  data : DataOk p
  sync : SyncOk cfg s p
  block : BlockOk g s owned t p

variable {shared : FileState}

theorem syncOk_unlock_data (hdata : r.IsData) (h : shared.fsyncedFile < cfg.numFiles) :
    SyncOk cfg shared (.unlock r) := by
  refine ⟨fun hop => ?_, h⟩
  rcases hdata with hread | hwrite
  · cases hread.symm.trans hop
  · cases hwrite.symm.trans hop

variable {t i : ℕ}

theorem setBlock_block_of_ne (h : i ≠ t) (block : PerThread) :
    (shared.setBlock t block).block i = shared.block i := by
  show ((update shared.perThread t block i).bufferFileId,
    (update shared.perThread t block i).bufferPos) = _
  rw [update_of_ne h]
  rfl

theorem setBlock_block_self (shared : FileState) (t : ℕ) (block : PerThread) :
    (shared.setBlock t block).block t = (block.bufferFileId, block.bufferPos) := by
  show ((update shared.perThread t block t).bufferFileId,
    (update shared.perThread t block t).bufferPos) = _
  rw [update_self]

theorem FreeBelow.setBlock {n : ℕ} (h : FreeBelow g shared t r n) (block : PerThread) :
    FreeBelow g (shared.setBlock t block) t r n := by
  intro hvalidate i hi hne
  rw [setBlock_block_of_ne hne]
  exact h hvalidate i hi hne

theorem FreeBelow.succ (h : FreeBelow g shared t r i)
    (hi : i ≠ t → shared.block i ≠ (r.fileId, r.pos)) : FreeBelow g shared t r (i + 1) := by
  intro hvalidate j hj hne
  rcases Nat.lt_succ_iff_lt_or_eq.mp hj with hlt | rfl
  · exact h hvalidate j hlt hne
  · exact hi hne

variable {owned : Option (ℕ × ℕ)}

theorem phaseOk_unlock_data (hdata : r.IsData) (hsync : shared.fsyncedFile < cfg.numFiles)
    (hblock : FreeBelow g shared t r g.threads ∧ shared.block t = (r.fileId, r.pos)) :
    PhaseOk g cfg shared owned t (.unlock r) :=
  ⟨trivial, syncOk_unlock_data hdata hsync, fun _ => hblock, fun hc => absurd hdata hc⟩

theorem phaseOk_unlock_fsync {fileId : ℕ} (hfile : fileId < cfg.numFiles)
    (hsync : shared.fsyncedFile < cfg.numFiles) (howns : Owns shared owned t) :
    PhaseOk g cfg shared owned t (.unlock (fsyncOf fileId)) :=
  ⟨trivial, ⟨fun _ => hfile, hsync⟩, fun hc => absurd hc (not_isData_fsyncOf fileId),
    fun _ => howns⟩

/-- A step of the thread leads from what one phase says to what the next one says. -/
theorem phaseOk_advance {p : RndPhase} (hfiles : 0 < cfg.numFiles)
    (h : PhaseOk g cfg shared owned e.thread p) :
    PhaseOk g cfg (rndAdvance quotient g cfg e shared p).1 owned e.thread
      (rndAdvance quotient g cfg e shared p).2 := by
  obtain ⟨hdata, hsync, hblock⟩ := h
  cases p with
  | idle =>
    rw [rndAdvance]
    split
    · exact ⟨trivial, hsync, hblock⟩
    · exact ⟨rndOperation_isData quotient cfg e.counters, hsync, hblock⟩
  | readDirty operation =>
    rw [rndAdvance]
    split <;> exact ⟨hdata, hsync, hblock⟩
  | readPerformed operation =>
    rw [rndAdvance]
    split
    · exact ⟨trivial, hsync, hblock⟩
    · exact ⟨hdata, hsync, hblock⟩
  | readFsynced => exact ⟨trivial, ⟨hsync, hsync⟩, hblock⟩
  | loadFsynced fileId => exact ⟨trivial, ⟨hsync.1, hsync.2⟩, hblock⟩
  | storeFsynced fileId value =>
    exact ⟨trivial, ⟨hsync.1, (Nat.mod_le _ _).trans (Nat.succ_le_of_lt hsync.2)⟩, hblock⟩
  | compareFsynced fileId =>
    rw [rndAdvance]
    split
    · exact ⟨trivial, hsync.1, hblock⟩
    · rename_i hne
      exact phaseOk_unlock_fsync hsync.1 (lt_of_le_of_ne hsync.2 hne) hblock
  | resetFsynced fileId => exact ⟨trivial, ⟨hsync, hfiles⟩, hblock⟩
  | resetDirty fileId => exact phaseOk_unlock_fsync hsync.1 hsync.2 hblock
  | draw operation =>
    rw [rndAdvance]
    split
    · exact ⟨hdata, hsync, hblock⟩
    · rename_i r hr
      have hr : r.IsData := by
        rw [FileRequest.IsData, rndDataRequest_operation hr]
        exact hdata
      split
      · exact ⟨hr, hsync, hblock, fun _ i hi => absurd hi (Nat.not_lt_zero i)⟩
      · rename_i hvalidate
        exact ⟨hr, hsync, hblock, fun hc => absurd hc hvalidate⟩
  | scanFile r i =>
    obtain ⟨howns, hfree⟩ := hblock
    rw [rndAdvance]
    split
    · rename_i hend
      exact ⟨hdata, hsync, howns, fun hvalidate j hj => hfree hvalidate j (hj.trans_le hend)⟩
    · split
      · exact ⟨hdata, hsync, howns, hfree⟩
      · rename_i hother
        refine ⟨hdata, hsync, howns, hfree.succ fun hne hblock => hother ⟨hne, ?_⟩⟩
        exact congrArg Prod.fst hblock
  | scanPos r i =>
    obtain ⟨howns, hfree⟩ := hblock
    rw [rndAdvance]
    split
    · exact ⟨hdata, hsync, howns⟩
    · rename_i hother
      refine ⟨hdata, hsync, howns, hfree.succ fun _ hblock => hother ?_⟩
      exact congrArg Prod.snd hblock
  | publishFile r =>
    exact ⟨hdata, hsync, hblock.2.setBlock _,
      congrArg Prod.fst (setBlock_block_self shared e.thread _)⟩
  | publishPos r =>
    refine ⟨hdata, hsync, hblock.1.setBlock _,
      (setBlock_block_self shared e.thread _).trans ?_⟩
    rw [hblock.2]
  | loadPerformed r => exact ⟨hdata, hsync, hblock⟩
  | storePerformed r value =>
    rw [rndAdvance]
    split
    · exact ⟨hdata, hsync, hblock⟩
    · exact phaseOk_unlock_data hdata hsync hblock
  | setDirty r => exact phaseOk_unlock_data hdata hsync hblock
  | unlock r => exact ⟨trivial, hsync, hblock⟩

/-- Only the thread's own entry of `per_thread` changes. -/
theorem rndAdvance_block_of_ne {p : RndPhase} (h : i ≠ e.thread) :
    (rndAdvance quotient g cfg e shared p).1.block i = shared.block i := by
  unfold rndAdvance
  cases p with
  | publishFile r | publishPos r => exact setBlock_block_of_ne h _
  | _ =>
    dsimp only
    repeat' split
    all_goals rfl

theorem move_phase_self (s : RndState) (t : ℕ) (next : FileState × RndPhase) :
    (s.move t next).phase t = next.2 :=
  update_self ..

theorem move_phase_of_ne (h : i ≠ t) (next : FileState × RndPhase) :
    (s.move t next).phase i = s.phase i :=
  update_of_ne h ..

theorem unlock_phase_self (s : RndState) (t : ℕ) (r : FileRequest) :
    (s.unlock t r).phase t = .idle :=
  update_self ..

theorem unlock_phase_of_ne (h : i ≠ t) (r : FileRequest) : (s.unlock t r).phase i = s.phase i :=
  update_of_ne h ..

theorem unlock_owned_self :
    (s.unlock t r).owned t = if r.IsData then some (r.fileId, r.pos) else s.owned t := by
  show (if _ then _ else _ : ℕ → Option (ℕ × ℕ)) t = _
  split
  · exact update_self ..
  · rfl

theorem unlock_owned_of_ne (h : i ≠ t) (r : FileRequest) : (s.unlock t r).owned i = s.owned i := by
  show (if _ then _ else _ : ℕ → Option (ℕ × ℕ)) i = _
  split
  · exact update_of_ne h ..
  · rfl

/-- All threads but `t` are outside, and `t` has kept to what its phase says. -/
structure Serial (g : Globals) (cfg : FileConfig) (s : RndState) (t : ℕ) : Prop where
  others : ∀ i, i ≠ t → s.phase i = .idle
  owns : ∀ i, i ≠ t → Owns s.shared (s.owned i) i
  phase : PhaseOk g cfg s.shared (s.owned t) t (s.phase t)

theorem Serial.switch (h : Serial g cfg s t) (hidle : s.phase t = .idle) (t' : ℕ) :
    Serial g cfg s t' := by
  have hidle_all (i : ℕ) : s.phase i = .idle := by
    by_cases hi : i = t
    · rw [hi, hidle]
    · exact h.others i hi
  have howns (i : ℕ) : Owns s.shared (s.owned i) i := by
    by_cases hi : i = t
    · have hblock := h.phase.block
      rw [hidle] at hblock
      rw [hi]
      exact hblock
    · exact h.owns i hi
  have hsync := h.phase.sync
  rw [hidle] at hsync
  refine ⟨fun i _ => hidle_all i, fun i _ => howns i, ?_⟩
  rw [hidle_all t']
  exact ⟨trivial, hsync, howns t'⟩

theorem Serial.move (hfiles : 0 < cfg.numFiles) (h : Serial g cfg s e.thread) :
    Serial g cfg (s.move e.thread (rndAdvance quotient g cfg e s.shared (s.phase e.thread)))
      e.thread := by
  refine ⟨fun i hi => ?_, fun i hi => ?_, ?_⟩
  · rw [move_phase_of_ne hi, h.others i hi]
  · intro block hblock
    exact (rndAdvance_block_of_ne hi).trans (h.owns i hi block hblock)
  · rw [move_phase_self]
    exact phaseOk_advance hfiles h.phase

theorem Serial.unlock (h : Serial g cfg s t) (hphase : s.phase t = .unlock r) :
    Serial g cfg (s.unlock t r) t := by
  have hat := h.phase
  rw [hphase] at hat
  obtain ⟨-, hsync, hblock⟩ := hat
  refine ⟨fun i hi => ?_, fun i hi => ?_, ?_⟩
  · rw [unlock_phase_of_ne hi, h.others i hi]
  · rw [unlock_owned_of_ne hi]
    exact h.owns i hi
  · rw [unlock_phase_self, unlock_owned_self]
    refine ⟨trivial, hsync.2, ?_⟩
    split
    · rename_i hdata
      intro block hsome
      cases hsome
      exact (hblock.1 hdata).2
    · rename_i hdata
      exact hblock.2 hdata

theorem fsyncsInRange_unlock (h : FsyncsInRange cfg s)
    (hr : r.operation = .fsync → r.fileId < cfg.numFiles) : FsyncsInRange cfg (s.unlock t r) := by
  intro p hp
  rcases mem_append.mp hp with hold | hnew
  · exact h p hold
  · rw [mem_singleton.mp hnew]
    exact hr

theorem blocksExclusive_unlock (h : BlocksExclusive g s)
    (howns : ∀ i, i ≠ t → Owns s.shared (s.owned i) i)
    (hfree : r.IsData → FreeBelow g s.shared t r g.threads) : BlocksExclusive g (s.unlock t r) := by
  intro hvalidate a b ha hb hne block
  have hnew (hdata : r.IsData) (i : ℕ) (hi : i < g.threads) (hit : i ≠ t) :
      s.owned i ≠ some (r.fileId, r.pos) :=
    fun hsome => hfree hdata hvalidate i hi hit (howns i hit _ hsome)
  have hold := h hvalidate a b ha hb hne block
  by_cases hdata : r.IsData
  · by_cases hat : a = t
    · subst hat
      rw [unlock_owned_self, if_pos hdata, unlock_owned_of_ne (Ne.symm hne)]
      rintro hblock
      cases hblock
      exact hnew hdata b hb (Ne.symm hne)
    · rw [unlock_owned_of_ne hat]
      by_cases hbt : b = t
      · subst hbt
        rw [unlock_owned_self, if_pos hdata]
        intro hblock hsome
        exact hnew hdata a ha hat (hblock.trans hsome.symm)
      · rw [unlock_owned_of_ne hbt]
        exact hold
  · have hkept : (s.unlock t r).owned = s.owned := if_neg hdata
    rw [hkept]
    exact hold

/-- What runs keep in which calls do not overlap. -/
structure SerialInv (g : Globals) (cfg : FileConfig) (s : RndState) : Prop where
  serial : ∃ t, Serial g cfg s t
  fsyncs : FsyncsInRange cfg s
  blocks : BlocksExclusive g s

theorem serialInv_start (hfiles : 0 < cfg.numFiles) (perThread : ℕ → PerThread) :
    SerialInv g cfg (rndStart perThread) where
  serial := ⟨0, fun _ _ => rfl, nofun,
    trivial, hfiles, nofun⟩
  fsyncs := nofun
  blocks := nofun

theorem SerialInv.step (hfiles : 0 < cfg.numFiles) (h : SerialInv g cfg s) (halone : Alone s e) :
    SerialInv g cfg (rndStep quotient g cfg s e) := by
  obtain ⟨t, ht⟩ := h.serial
  have hserial : Serial g cfg s e.thread := by
    by_cases hte : t = e.thread
    · exact hte ▸ ht
    · exact ht.switch (halone t hte) e.thread
  by_cases hat : AtUnlock s e
  · obtain ⟨r, hr⟩ := hat
    have hphase := hserial.phase
    rw [hr] at hphase
    obtain ⟨-, hsync, hblock⟩ := hphase
    rw [rndStep_unlock hr]
    exact ⟨⟨e.thread, hserial.unlock hr⟩, fsyncsInRange_unlock h.fsyncs hsync.1,
      blocksExclusive_unlock h.blocks hserial.owns fun hdata => (hblock.1 hdata).1⟩
  · rw [rndStep_move hat]
    exact ⟨⟨e.thread, hserial.move hfiles⟩, h.fsyncs, h.blocks⟩

/-! ### Interleavings -/

/-- **What protects random requests.** Not `exec_mutex`: in every interleaving of any number of
threads, all three properties hold throughout exactly if no thread comes to its unlock, that is
if no call ever returns.  Where no two calls overlap, every fsync request is for one of the
files and, in validation mode, no two threads own the same block. -/
theorem rnd_requests_protected_iff (quotient : UInt64 → UInt64 → ℚ) (memalign : ℕ → Bool)
    (g : Globals) (o : FileOptions) (cfg : FileConfig)
    (hparse : parseArguments memalign g o = .ok cfg) (perThread : ℕ → PerThread)
    (es : List RndEvent) :
    (Always (rndStep quotient g cfg) (Protected g cfg) (rndStart perThread) es ↔
      Along (rndStep quotient g cfg) (fun s e => ¬AtUnlock s e) (rndStart perThread) es) ∧
    (Along (rndStep quotient g cfg) Alone (rndStart perThread) es →
      Always (rndStep quotient g cfg) (fun s => FsyncsInRange cfg s ∧ BlocksExclusive g s)
        (rndStart perThread) es) := by
  have hfiles := (parseArguments_accepted hparse).numFiles_pos
  have hstart := neverLocked_start perThread
  refine ⟨?_, fun halone => ?_⟩
  · refine always_iff_along (J := NeverLocked) (fun s e h => h.step e)
      (fun s e h hs => h.protected_step_iff hs e) hstart ?_
    exact hstart.protected_iff.mpr rfl
  · have hinv := always_of_along (fun s e h hok => SerialInv.step hfiles h hok)
      (serialInv_start hfiles perThread) halone
    exact hinv.mono fun s h => ⟨h.fsyncs, h.blocks⟩

/-- Random writes to a single file of two blocks, with an fsync after each. -/
def writeOptions : FileOptions :=
  { smallOptions 1 2 with fileTestMode := some "rndwr", fileFsyncFreq := 1 }

def writeConfig : FileConfig :=
  { smallConfig 1 2 2 with testMode := .rndWrite, fsyncFreq := 1 }

/-- Two threads, with validation. -/
def twoThreads : Globals := ⟨"run", 2, true⟩

/-- Steps of a thread in a row, which always draws the first block. -/
def steps (thread n : ℕ) : List RndEvent := List.replicate n ⟨thread, fun _ => 0, 0⟩

def afterSteps (es : List RndEvent) : RndState :=
  es.foldl (rndStep (fun _ _ => 1) twoThreads writeConfig) (rndStart fun _ => ⟨7, 7⟩)

/-- A thread in the middle of its call. -/
theorem rnd_requests_protected_on_the_way :
    parseArguments (fun _ => true) twoThreads writeOptions = .ok writeConfig ∧
      Always (rndStep (fun _ _ => 1) twoThreads writeConfig) (Protected twoThreads writeConfig)
        (rndStart fun _ => ⟨7, 7⟩) (steps 0 2) := by
  have hparse : parseArguments (fun _ => true) twoThreads writeOptions = .ok writeConfig := by
    decide +kernel
  refine ⟨hparse, (rnd_requests_protected_iff _ _ _ _ _ hparse _ _).1.mpr ?_⟩
  exact ⟨fun ⟨r, hr⟩ => (nomatch hr), fun ⟨r, hr⟩ => (nomatch hr), trivial⟩

/-- One call gives back a mutex that is free.  A thread that comes between `fsynced_file++` and
the comparison syncs a file behind the last; and two that look for a free block at the same time
take the same. -/
theorem rnd_requests_unprotected :
    parseArguments (fun _ => true) twoThreads writeOptions = .ok writeConfig ∧
    ¬UnlocksHeld (afterSteps (steps 0 12)) ∧
    ¬FsyncsInRange writeConfig (afterSteps (steps 0 12 ++ steps 0 6 ++ steps 1 8)) ∧
    ¬BlocksExclusive twoThreads (afterSteps (steps 0 6 ++ steps 1 12 ++ steps 0 6)) := by
  refine ⟨by decide +kernel, fun h => ?_, fun h => ?_, fun h => ?_⟩
  · have hmem : (0, false) ∈ (afterSteps (steps 0 12)).unlocks := by decide +kernel
    exact Bool.false_ne_true (h _ hmem)
  · have hmem : (1, fsyncOf 1)
        ∈ (afterSteps (steps 0 12 ++ steps 0 6 ++ steps 1 8)).emitted := by decide +kernel
    exact absurd (h _ hmem rfl) (by decide)
  · have hfirst : (afterSteps (steps 0 6 ++ steps 1 12 ++ steps 0 6)).owned 0 = some (0, 0) := by
      decide +kernel
    have hsecond : (afterSteps (steps 0 6 ++ steps 1 12 ++ steps 0 6)).owned 1 = some (0, 0) := by
      decide +kernel
    exact h rfl 0 1 (by decide) (by decide) (by decide) _ hfirst hsecond

end Sysbench.FileIo
