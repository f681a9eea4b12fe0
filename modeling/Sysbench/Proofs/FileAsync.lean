/-
The accounting of asynchronous I/O.

Submitted operations are in flight until `io_getevents` returns them: as multisets, what has
been submitted is what has been reported together with what is in flight.  `Balanced` says so,
and that `nrequests` counts the latter and the statistics the former.  Submitting and waiting
keep it, `file_submit_or_wait` keeps `nrequests` below the backlog, and `file_thread_done`
brings it to zero, unless an fsync fails: then it returns without waiting.
-/
import Mathlib.Algebra.Order.BigOperators.Group.Multiset
import Sysbench.Lib.Runs
import Sysbench.Model.FileAsync

namespace Sysbench.FileIo

open List

variable {backlog : UInt32} {cfg : FileConfig} {fsync : ℕ → Bool} {events : List AioEvent}
  {c : AioContext} {s : AioRun} {min max : ℕ}

/-! ### What the system returns -/

/-- The result of an operation that was successful in full -/
def AioOper.fullResult (oper : AioOper) : ℤ :=
  if oper.type = .fsync then 0 else oper.len

/-- `io_getevents` has returned so many distinct operations out of those in flight, all of them
successful. -/
structure Returned (min max : ℕ) (inFlight : Multiset AioOper) (events : List AioEvent) : Prop where
  min_le : min ≤ events.length
  le_max : events.length ≤ max
  distinct : (events.map AioEvent.oper : Multiset AioOper) ≤ inFlight
  successful : ∀ e ∈ events, e.res = e.oper.fullResult

/-- What the calls made by `file_submit_or_wait` return: the operation is submitted, and if there
is a wait it is for one event at least. -/
def Answered (backlog : UInt32) (s : AioRun) (call : AioCall) : Prop :=
  call.answer.submit = true ∧
    (call.answer.malloc = true → ¬(s.ctx.submitted call.oper).nrequests < backlog →
      Returned 1 backlog.toNat (s.ctx.submitted call.oper).inFlight call.answer.events)

/-- The states between the calls of `file_submit_or_wait`. -/
def AioReach (backlog : UInt32) (s : AioRun) : Prop :=
  Runs.Reach (F := Empty) (fun s call => .ok (aioCall backlog s call, ())) (Answered backlog)
    aioStart s

theorem failure_eq_none {e : AioEvent} (h : e.res = e.oper.fullResult) : e.failure = none := by
  unfold AioOper.fullResult at h
  unfold AioEvent.failure
  cases htype : e.oper.type with
  | null => rfl
  | read | write =>
    rw [htype] at h
    exact if_neg (not_not.mpr h)
  | fsync =>
    rw [htype] at h
    exact if_neg (not_not.mpr h)

/-! ### Counting -/

/-- What an operation adds to a counter -/
def AioOper.adds (oper : AioOper) (t : SbCounterType) : ℕ :=
  match oper.type, t with
  | .fsync, .other => 1
  | .read, .read => 1
  | .read, .bytesRead => oper.len
  | .write, .write => 1
  | .write, .bytesWritten => oper.len
  | _, _ => 0

theorem countOper_counters (c : AioContext) (oper : AioOper) (t : SbCounterType) :
    (c.countOper oper).counters t = c.counters t + UInt64.ofNat (oper.adds t) := by
  unfold AioContext.countOper AioOper.adds AioContext.count
  cases oper.type <;> cases t <;> simp

theorem countOper_nrequests (c : AioContext) (oper : AioOper) :
    (c.countOper oper).nrequests = c.nrequests ∧ (c.countOper oper).inFlight = c.inFlight := by
  unfold AioContext.countOper AioContext.count
  cases oper.type with
  | null | read | write | fsync => exact ⟨rfl, rfl⟩

/-- What operations add to a counter in all -/
def added (opers : List AioOper) (t : SbCounterType) : ℕ :=
  (opers.map fun oper => oper.adds t).sum

theorem added_append (opers opers' : List AioOper) (t : SbCounterType) :
    added (opers ++ opers') t = added opers t + added opers' t := by
  unfold added
  rw [map_append, sum_append]

theorem added_cons (oper : AioOper) (opers : List AioOper) (t : SbCounterType) :
    added (oper :: opers) t = oper.adds t + added opers t :=
  sum_cons

/-- The loop over successful events: it counts them all and takes them off `nrequests`. -/
theorem waitLoop_eq (events : List AioEvent) (c : AioContext)
    (h : ∀ e ∈ events, e.res = e.oper.fullResult) (hle : events.length ≤ c.nrequests.toNat) :
    (waitLoop events c).2 = none ∧
      (waitLoop events c).1.nrequests.toNat = c.nrequests.toNat - events.length ∧
      (waitLoop events c).1.inFlight = c.inFlight ∧
      ∀ t, (waitLoop events c).1.counters t
        = c.counters t + UInt64.ofNat (added (events.map AioEvent.oper) t) := by
  induction events generalizing c with
  | nil => exact ⟨rfl, rfl, rfl, fun t => (UInt64.add_zero _).symm⟩
  | cons e events ih =>
    have he := failure_eq_none (h e mem_cons_self)
    have hrest := fun e' he' => h e' (mem_cons_of_mem e he')
    obtain ⟨hnreq, hflight⟩ := countOper_nrequests c e.oper
    rw [length_cons] at hle
    have hone : (1 : UInt32) ≤ c.nrequests := by
      rw [UInt32.le_iff_toNat_le]
      show 1 ≤ _
      omega
    have hless : ((c.countOper e.oper).nrequests - 1).toNat = c.nrequests.toNat - 1 := by
      rw [hnreq, UInt32.toNat_sub_of_le _ _ hone]
      rfl
    simp only [waitLoop, he]
    obtain ⟨hok, hcount, hflight', hcounters⟩ :=
      ih { c.countOper e.oper with nrequests := (c.countOper e.oper).nrequests - 1 } hrest
        (by simp only [hless]; omega)
    refine ⟨hok, ?_, hflight'.trans hflight, fun t => ?_⟩
    · rw [hcount, length_cons]
      simp only [hless]
      omega
    · rw [hcounters, map_cons, added_cons, UInt64.ofNat_add, ← UInt64.add_assoc,
        ← countOper_counters]

/-! ### Balance -/

/-- What has been submitted is what has been reported and what is in flight; `nrequests` and the
counters say how much that is. -/
structure Balanced (s : AioRun) : Prop where
  submitted_eq : (s.submitted : Multiset AioOper) = ↑s.reported + s.ctx.inFlight
  nrequests_eq : s.ctx.nrequests.toNat = s.ctx.inFlight.card
  counters_eq : ∀ t, t ≠ .other → s.ctx.counters t = UInt64.ofNat (added s.reported t)

theorem balanced_start : Balanced aioStart where
  submitted_eq := rfl
  nrequests_eq := rfl
  counters_eq := fun _ _ => rfl

theorem Balanced.length_eq (h : Balanced s) :
    s.submitted.length = s.reported.length + s.ctx.nrequests.toNat := by
  have hcard := congrArg Multiset.card h.submitted_eq
  rw [Multiset.card_add] at hcard
  rw [h.nrequests_eq]
  exact hcard

theorem toNat_submitted (oper : AioOper) (h : c.nrequests.toNat + 1 < 2 ^ 32) :
    (c.submitted oper).nrequests.toNat = c.nrequests.toNat + 1 := by
  exact Nat.mod_eq_of_lt h

theorem Balanced.submit (h : Balanced s) (oper : AioOper)
    (hlt : s.ctx.nrequests.toNat + 1 < 2 ^ 32) :
    Balanced { s with ctx := s.ctx.submitted oper, submitted := s.submitted ++ [oper] } where
  submitted_eq := by
    show ((s.submitted ++ [oper] : List AioOper) : Multiset AioOper)
      = ↑s.reported + oper ::ₘ s.ctx.inFlight
    rw [← Multiset.coe_add, h.submitted_eq, Multiset.add_cons, ← Multiset.singleton_add,
      Multiset.add_comm]
    rfl
  nrequests_eq := by
    show (s.ctx.submitted oper).nrequests.toNat = (oper ::ₘ s.ctx.inFlight).card
    rw [toNat_submitted oper hlt, h.nrequests_eq, Multiset.card_cons]
  counters_eq := h.counters_eq

theorem Returned.length_le {inFlight : Multiset AioOper}
    (h : Returned min max inFlight events) : events.length ≤ inFlight.card := by
  have hcard := Multiset.card_le_card h.distinct
  rw [Multiset.coe_card, length_map] at hcard
  exact hcard

theorem Balanced.wait (h : Balanced s)
    (hret : Returned min max s.ctx.inFlight events) (hmin : 1 ≤ min) :
    (fileWait events s.ctx).2 = none ∧
      (fileWait events s.ctx).1.nrequests.toNat = s.ctx.nrequests.toNat - events.length ∧
      Balanced { s with
        ctx := (fileWait events s.ctx).1
        reported := s.reported ++ events.map AioEvent.oper } := by
  have hne : events ≠ [] := by
    intro hnil
    have hlen := hret.min_le
    rw [hnil, length_nil] at hlen
    omega
  have hle : events.length ≤ s.ctx.nrequests.toNat := by
    rw [h.nrequests_eq]
    exact hret.length_le
  rw [fileWait, if_neg hne]
  obtain ⟨hok, hcount, hflight, hcounters⟩ := waitLoop_eq events { s.ctx with
    inFlight := s.ctx.inFlight - (events.map AioEvent.oper : Multiset AioOper) } hret.successful hle
  have hsplit : (events.map AioEvent.oper : Multiset AioOper)
      + (s.ctx.inFlight - (events.map AioEvent.oper : Multiset AioOper)) = s.ctx.inFlight := by
    rw [Multiset.add_comm]
    exact Multiset.sub_add_cancel hret.distinct
  refine ⟨hok, hcount, ?_, ?_, ?_⟩
  · rw [hflight]
    rw [h.submitted_eq, ← Multiset.coe_add, Multiset.add_assoc, hsplit]
  · show (waitLoop events _).1.nrequests.toNat = (waitLoop events _).1.inFlight.card
    rw [hcount, hflight, Multiset.card_sub hret.distinct, Multiset.coe_card, length_map,
      ← h.nrequests_eq]
  · intro t ht
    rw [hcounters, added_append, UInt64.ofNat_add, ← h.counters_eq t ht]

/-! ### Calls of `file_submit_or_wait` -/

variable {call : AioCall}

theorem fileSubmitOrWait_eq {answer : SubmitAnswer} (hmalloc : answer.malloc = true)
    (hsubmit : answer.submit = true) (oper : AioOper) (c : AioContext) :
    fileSubmitOrWait backlog answer oper c
      = if (c.submitted oper).nrequests < backlog then (c.submitted oper, none)
        else fileWait answer.events (c.submitted oper) := by
  rw [fileSubmitOrWait, if_neg (by rw [hmalloc]; decide), if_neg (by rw [hsubmit]; decide)]

/-- A call with an `io_submit` that succeeds: out of memory, with room in the queue, or waiting. -/
theorem aioCall_cases (backlog : UInt32) (s : AioRun) (hsubmit : call.answer.submit = true) :
    (call.answer.malloc = false ∧ aioCall backlog s call = s) ∨
      (call.answer.malloc = true ∧ (s.ctx.submitted call.oper).nrequests < backlog ∧
        aioCall backlog s call = { s with
          ctx := s.ctx.submitted call.oper
          submitted := s.submitted ++ [call.oper] }) ∨
      (call.answer.malloc = true ∧ ¬(s.ctx.submitted call.oper).nrequests < backlog ∧
        aioCall backlog s call = {
          ctx := (fileWait call.answer.events (s.ctx.submitted call.oper)).1
          submitted := s.submitted ++ [call.oper]
          reported := s.reported ++ call.answer.events.map AioEvent.oper }) := by
  unfold aioCall fileSubmitOrWait SubmitAnswer.reported
  cases hmalloc : call.answer.malloc with
  | false =>
    simp
  | true =>
    right
    by_cases hroom : (s.ctx.submitted call.oper).nrequests < backlog
    · left
      simp [hsubmit, hroom]
    · simp [hsubmit, hroom]

/-- Between the calls the queue has room for one operation more. -/
structure AioInv (backlog : UInt32) (s : AioRun) : Prop extends Balanced s where
  nrequests_lt : s.ctx.nrequests.toNat < backlog.toNat

theorem AioInv.submit (h : AioInv backlog s) (oper : AioOper) :
    Balanced { s with ctx := s.ctx.submitted oper, submitted := s.submitted ++ [oper] } ∧
      (s.ctx.submitted oper).nrequests.toNat = s.ctx.nrequests.toNat + 1 := by
  have hlt : s.ctx.nrequests.toNat + 1 < 2 ^ 32 :=
    Nat.lt_of_le_of_lt h.nrequests_lt backlog.toNat_lt
  exact ⟨h.toBalanced.submit oper hlt, toNat_submitted oper hlt⟩

theorem AioInv.step (h : AioInv backlog s) (hans : Answered backlog s call) :
    AioInv backlog (aioCall backlog s call) := by
  obtain ⟨hbal, hcount⟩ := h.submit call.oper
  rcases aioCall_cases backlog s hans.1 with ⟨-, heq⟩ | ⟨-, hroom, heq⟩ |
    ⟨hmalloc, hfull, heq⟩
  · rw [heq]
    exact h
  · rw [heq]
    exact { hbal with nrequests_lt := UInt32.lt_iff_toNat_lt.mp hroom }
  · have hret := hans.2 hmalloc hfull
    obtain ⟨-, hleft, hbal⟩ := hbal.wait hret (Nat.le_refl 1)
    have hone := hret.min_le
    have hlt := h.nrequests_lt
    simp only [hcount] at hleft
    rw [heq]
    exact { hbal with
      nrequests_lt := by
        show (fileWait _ _).1.nrequests.toNat < _
        omega }

theorem AioReach.inv (hbacklog : 1 ≤ backlog.toNat) (h : AioReach backlog s) :
    AioInv backlog s := by
  have hstart : AioInv backlog aioStart := { balanced_start with nrequests_lt := hbacklog }
  refine Runs.Reach.invariant hstart ?_ h
  intro s s' call _ hs hans hstep
  cases hstep
  exact hs.step hans

/-! ### `file_thread_done` -/

/-- One of the fsyncs that `file_thread_done` makes fails. -/
def FsyncFails (cfg : FileConfig) (fsync : ℕ → Bool) : Prop :=
  (cfg.fsyncEnd = true ∧ cfg.testMode ≠ .read ∧ cfg.testMode ≠ .rndRead) ∧
    ∃ i < cfg.numFiles, fsync i = false

/-- The contexts differ in the counter of the fsyncs only. -/
def SameAccount (c c' : AioContext) : Prop :=
  c'.nrequests = c.nrequests ∧ c'.inFlight = c.inFlight ∧
    ∀ t, t ≠ .other → c'.counters t = c.counters t

theorem SameAccount.balanced (h : Balanced s) (hsame : SameAccount s.ctx c) :
    Balanced { s with ctx := c } := by
  obtain ⟨hnreq, hflight, hcounters⟩ := hsame
  refine ⟨?_, ?_, fun t ht => ?_⟩
  · show _ = _ + c.inFlight
    rw [hflight]
    exact h.submitted_eq
  · show c.nrequests.toNat = c.inFlight.card
    rw [hnreq, hflight]
    exact h.nrequests_eq
  · exact (hcounters t ht).trans (h.counters_eq t ht)

theorem fsyncFiles_spec (fsync : ℕ → Bool) (n i : ℕ) (c : AioContext) :
    SameAccount c (fsyncFiles fsync n i c).1 ∧
      ((fsyncFiles fsync n i c).2 = none ↔ ∀ j < n, fsync (i + j) = true) := by
  induction n generalizing i c with
  | zero =>
    refine ⟨⟨rfl, rfl, fun _ _ => rfl⟩, fun _ _ hj => ?_, fun _ => rfl⟩
    exact absurd hj (Nat.not_lt_zero _)
  | succ n ih =>
    unfold fsyncFiles
    by_cases hfirst : fsync i = true
    · rw [if_pos hfirst]
      obtain ⟨⟨hnreq, hflight, hcounters⟩, hiff⟩ := ih (i + 1) (c.count .other 1)
      refine ⟨⟨hnreq, hflight, fun t ht => (hcounters t ht).trans ?_⟩, hiff.trans ?_⟩
      · exact Function.update_of_ne ht _ _
      · constructor
        · intro h j hj
          cases j with
          | zero => exact hfirst
          | succ j =>
            rw [Nat.add_comm j 1, ← Nat.add_assoc]
            exact h j (by omega)
        · intro h j hj
          have hnext := h (j + 1) (by omega)
          rw [Nat.add_comm j 1, ← Nat.add_assoc] at hnext
          exact hnext
    · rw [if_neg hfirst]
      refine ⟨⟨rfl, rfl, fun _ _ => rfl⟩, nofun, fun h => ?_⟩
      exact absurd (h 0 (Nat.succ_pos n)) hfirst

theorem fsyncAtEnd_spec (cfg : FileConfig) (fsync : ℕ → Bool) (c : AioContext) :
    SameAccount c (fsyncAtEnd cfg fsync c).1 ∧
      ((fsyncAtEnd cfg fsync c).2 = none ↔ ¬FsyncFails cfg fsync) := by
  unfold fsyncAtEnd FsyncFails
  by_cases hend : cfg.fsyncEnd = true ∧ cfg.testMode ≠ .read ∧ cfg.testMode ≠ .rndRead
  · rw [if_pos hend]
    obtain ⟨hsame, hiff⟩ := fsyncFiles_spec fsync cfg.numFiles 0 c
    refine ⟨hsame, hiff.trans ?_⟩
    simp only [Nat.zero_add]
    constructor
    · rintro h ⟨-, i, hi, hfalse⟩
      rw [h i hi] at hfalse
      cases hfalse
    · intro h i hi
      cases hfsync : fsync i with
      | true => rfl
      | false => exact absurd ⟨hend, i, hi, hfsync⟩ h
  · rw [if_neg hend]
    exact ⟨⟨rfl, rfl, fun _ _ => rfl⟩, fun _ h => hend h.1, fun _ => rfl⟩

/-- What `file_thread_done` does in the asynchronous mode. -/
theorem aioDone_cases (fsync : ℕ → Bool) (events : List AioEvent) (s : AioRun)
    (hmode : cfg.ioMode = .async) :
    ((FsyncFails cfg fsync ∨ s.ctx.nrequests = 0) ∧
      aioDone cfg fsync events s = { s with ctx := (fsyncAtEnd cfg fsync s.ctx).1 }) ∨
    ((¬FsyncFails cfg fsync ∧ s.ctx.nrequests ≠ 0) ∧
      aioDone cfg fsync events s = { s with
        ctx := (fileWait events (fsyncAtEnd cfg fsync s.ctx).1).1
        reported := s.reported ++ events.map AioEvent.oper }) := by
  obtain ⟨⟨hnreq, -, -⟩, hiff⟩ := fsyncAtEnd_spec cfg fsync s.ctx
  unfold aioDone fileThreadDone doneReported
  rcases hend : fsyncAtEnd cfg fsync s.ctx with ⟨c, message⟩
  rw [hend] at hnreq hiff
  cases message with
  | some message =>
    left
    have hfails : FsyncFails cfg fsync := by
      by_contra hnot
      cases hiff.mpr hnot
    refine ⟨.inl hfails, ?_⟩
    simp
  | none =>
    have hok := hiff.mp rfl
    by_cases hzero : s.ctx.nrequests = 0
    · left
      simp only at hnreq
      simp [hnreq, hzero]
    · right
      have hpos : 0 < s.ctx.nrequests := UInt32.pos_iff_ne_zero.mpr hzero
      refine ⟨⟨hok, hzero⟩, ?_⟩
      simp only at hnreq
      simp [hnreq, hmode, hpos]

/-! ### The account -/

/-- `nrequests` is the number of operations submitted less those reported, and the counters hold
the numbers and lengths of those reported, modulo 2^64. -/
structure Accounted (s : AioRun) : Prop where
  reported_le : s.reported.length ≤ s.submitted.length
  nrequests_eq : s.ctx.nrequests.toNat = s.submitted.length - s.reported.length
  read_eq : s.ctx.counters .read = UInt64.ofNat (s.reported.countP (·.type = .read))
  write_eq : s.ctx.counters .write = UInt64.ofNat (s.reported.countP (·.type = .write))
  bytesRead_eq : s.ctx.counters .bytesRead
    = UInt64.ofNat ((s.reported.filter (·.type = .read)).map AioOper.len).sum
  bytesWritten_eq : s.ctx.counters .bytesWritten
    = UInt64.ofNat ((s.reported.filter (·.type = .write)).map AioOper.len).sum

/-- A wait for at least `min` events can be answered, it reports no more operations than are in
flight, and every event takes one off `nrequests`. -/
structure WaitAccounted (min : ℕ) (c : AioContext) (events : List AioEvent) : Prop where
  min_le : min ≤ c.inFlight.card
  length_le : events.length ≤ c.inFlight.card
  each : ∀ k ≤ events.length, ∀ inFlight,
    (waitLoop (events.take k) { c with inFlight := inFlight }).1.nrequests.toNat
      = c.nrequests.toNat - k

theorem added_ops (op : FileOp) {opers : List AioOper} {t : SbCounterType}
    (h : ∀ oper : AioOper, oper.adds t = if oper.type = op then 1 else 0) :
    added opers t = opers.countP (·.type = op) := by
  induction opers with
  | nil => rfl
  | cons oper opers ih =>
    rw [added_cons, h, ih, countP_cons]
    by_cases hop : oper.type = op
    · simp only [hop, if_true, decide_true]
      exact Nat.add_comm _ _
    · simp [hop]

theorem added_bytes (op : FileOp) {opers : List AioOper} {t : SbCounterType}
    (h : ∀ oper : AioOper, oper.adds t = if oper.type = op then oper.len else 0) :
    added opers t = ((opers.filter (·.type = op)).map AioOper.len).sum := by
  induction opers with
  | nil => rfl
  | cons oper opers ih =>
    rw [added_cons, h, ih]
    by_cases hop : oper.type = op
    · rw [if_pos hop, filter_cons_of_pos (by simpa using hop), map_cons, sum_cons]
    · rw [if_neg hop, filter_cons_of_neg (by simpa using hop), Nat.zero_add]

theorem Balanced.accounted (h : Balanced s) : Accounted s := by
  have hlen := h.length_eq
  refine ⟨by omega, by omega, ?_, ?_, ?_, ?_⟩
  · rw [h.counters_eq .read (by decide), added_ops .read]
    rintro ⟨type, len, fileId, pos⟩
    cases type <;> rfl
  · rw [h.counters_eq .write (by decide), added_ops .write]
    rintro ⟨type, len, fileId, pos⟩
    cases type <;> rfl
  · rw [h.counters_eq .bytesRead (by decide), added_bytes .read]
    rintro ⟨type, len, fileId, pos⟩
    cases type <;> rfl
  · rw [h.counters_eq .bytesWritten (by decide), added_bytes .write]
    rintro ⟨type, len, fileId, pos⟩
    cases type <;> rfl

theorem Balanced.waitAccounted (h : Balanced s)
    (hret : Returned min max s.ctx.inFlight events) : WaitAccounted min s.ctx events where
  min_le := Nat.le_trans hret.min_le hret.length_le
  length_le := hret.length_le
  each := by
    intro k hk inFlight
    have hlen := hret.length_le
    rw [← h.nrequests_eq] at hlen
    have htake : (events.take k).length = k := by
      rw [length_take]
      exact Nat.min_eq_left hk
    obtain ⟨-, hcount, -, -⟩ := waitLoop_eq (events.take k)
      { s.ctx with inFlight := inFlight }
      (fun e he => hret.successful e (mem_of_mem_take he))
      (by rw [htake]; exact le_trans hk hlen)
    rw [hcount, htake]

/-- What is to hold of a thread before, in and after its last calls. -/
structure AioAccount (backlog : UInt32) (cfg : FileConfig) (fsync : ℕ → Bool)
    (events : List AioEvent) (s : AioRun) : Prop where
  accounted : Accounted s
  nrequests_le : s.ctx.nrequests.toNat ≤ backlog.toNat - 1
  /-- the waits of `file_submit_or_wait` -/
  wait : ∀ call, Answered backlog s call → call.answer.malloc = true →
    ¬(s.ctx.submitted call.oper).nrequests < backlog →
    WaitAccounted 1 (s.ctx.submitted call.oper) call.answer.events
  /-- the one of `file_thread_done` -/
  waitDone : doneReported cfg fsync events s.ctx ≠ [] →
    WaitAccounted s.ctx.nrequests.toNat s.ctx events
  accountedDone : Accounted (aioDone cfg fsync events s)
  nrequestsDone : (aioDone cfg fsync events s).ctx.nrequests = 0

/-- All of it holds, except that `file_thread_done` leaves operations in flight if an fsync fails
before it has waited for them. -/
theorem aio_account_iff (backlog : UInt32) (hbacklog : 1 ≤ backlog.toNat) (cfg : FileConfig)
    (hmode : cfg.ioMode = .async) (s : AioRun) (h : AioReach backlog s) (fsync : ℕ → Bool)
    (events : List AioEvent)
    (hdone : s.ctx.nrequests ≠ 0 → ¬FsyncFails cfg fsync →
      Returned s.ctx.nrequests.toNat backlog.toNat s.ctx.inFlight events) :
    AioAccount backlog cfg fsync events s ↔ (FsyncFails cfg fsync → s.ctx.nrequests = 0) := by
  have hinv := h.inv hbacklog
  obtain ⟨hsame, hfsync⟩ := fsyncAtEnd_spec cfg fsync s.ctx
  have hbal := hsame.balanced hinv.toBalanced
  have hfinal : Accounted (aioDone cfg fsync events s) ∧
      ((aioDone cfg fsync events s).ctx.nrequests = 0 ↔
        (FsyncFails cfg fsync → s.ctx.nrequests = 0)) := by
    rcases aioDone_cases fsync events s hmode with ⟨hleft, heq⟩ | ⟨⟨hok, hne⟩, heq⟩
    · rw [heq]
      refine ⟨hbal.accounted, ?_⟩
      rw [hsame.1]
      exact ⟨fun hzero _ => hzero, fun himp => hleft.elim himp id⟩
    · have hret := hdone hne hok
      rw [← hsame.2.1, ← hsame.1] at hret
      have hpos : 1 ≤ (fsyncAtEnd cfg fsync s.ctx).1.nrequests.toNat := by
        rw [hsame.1]
        exact Nat.pos_of_ne_zero fun hzero => hne (UInt32.toNat_inj.mp hzero)
      obtain ⟨-, hleft, hbal⟩ := hbal.wait hret hpos
      have hall := hret.min_le
      rw [heq]
      refine ⟨hbal.accounted, fun _ hfails => absurd hfails hok, fun _ => ?_⟩
      apply UInt32.toNat_inj.mp
      refine hleft.trans (Nat.sub_eq_zero_of_le ?_)
      exact hall
  refine ⟨fun haccount => hfinal.2.mp haccount.nrequestsDone, fun himp => ?_⟩
  refine ⟨hinv.accounted, Nat.le_sub_one_of_lt hinv.nrequests_lt, ?_, ?_, hfinal.1,
    hfinal.2.mpr himp⟩
  · intro call hans hmalloc hfull
    exact (hinv.submit call.oper).1.waitAccounted (hans.2 hmalloc hfull)
  · intro hreported
    have hcond : (fsyncAtEnd cfg fsync s.ctx).2 = none ∧ cfg.ioMode = .async ∧
        0 < s.ctx.nrequests := by
      by_contra hnot
      exact hreported (if_neg hnot)
    exact hinv.toBalanced.waitAccounted
      (hdone (UInt32.pos_iff_ne_zero.mp hcond.2.2) (hfsync.mp hcond.1))

/-- A random write test of one file, with an fsync at the end. -/
def asyncConfig : FileConfig where
  numFiles := 1
  totalSize := 64
  fileSize := 64
  testMode := .rndWrite
  ioMode := .async
  blockSize := 16
  requestSize := 16

/-- A write of the block at `pos` -/
def blockWrite (pos : ℕ) : AioOper :=
  ⟨.write, 16, 0, pos⟩

/-- Submitted, with the blocks that are reported if there is a wait -/
def submitBlock (pos : ℕ) (reported : List ℕ) : AioCall :=
  ⟨blockWrite pos, true, true, reported.map fun p => ⟨blockWrite p, 16⟩⟩

def oneBlock : AioRun := aioCall 2 aioStart (submitBlock 0 [])

def twoBlocks : AioRun := aioCall 2 oneBlock (submitBlock 16 [0])

theorem oneBlock_reached : AioReach 2 oneBlock := by
  refine Runs.Reach.refl.next (c := submitBlock 0 []) ⟨rfl, fun _ hfull => ?_⟩ rfl
  exact absurd (by decide) hfull

theorem twoBlocks_reached : AioReach 2 twoBlocks := by
  refine oneBlock_reached.next (c := submitBlock 16 [0]) ⟨rfl, fun _ _ => ?_⟩ rfl
  exact ⟨by decide, by decide, by decide, by decide⟩

theorem two_blocks_are_accounted :
    AioAccount 2 asyncConfig (fun _ => true) [⟨blockWrite 16, 16⟩] twoBlocks := by
  refine (aio_account_iff 2 (by decide) asyncConfig rfl twoBlocks twoBlocks_reached _ _
    fun _ _ => ?_).mpr fun hfails => ?_
  · exact ⟨by decide, by decide, by decide, by decide⟩
  · obtain ⟨-, i, -, hfalse⟩ := hfails
    exact nomatch hfalse

/-- The fsync at the end fails, and the block submitted before is not waited for. -/
theorem failed_fsync_leaves_a_block :
    AioReach 2 oneBlock ∧ FsyncFails asyncConfig (fun _ => false) ∧
      (aioDone asyncConfig (fun _ => false) [] oneBlock).ctx.nrequests = 1 ∧
      ¬AioAccount 2 asyncConfig (fun _ => false) [] oneBlock := by
  have hleft : (aioDone asyncConfig (fun _ => false) [] oneBlock).ctx.nrequests = 1 := by decide
  refine ⟨oneBlock_reached, ⟨by decide, 0, by decide, rfl⟩, hleft, fun h => ?_⟩
  exact nomatch hleft.symm.trans h.nrequestsDone

end Sysbench.FileIo
