/-
Who uses a thread's buffer in the asynchronous mode.

All operations of a thread use its one buffer, and so does the thread itself in validation
mode: it fills the buffer before a write and checks it after a read.  With a backlog of one
every operation has been reported when `file_submit_or_wait` returns, and both find the
buffer free.  With a larger backlog the first operation is still in flight when the call
returns, and a read is checked, or the next write filled in, regardless.
`buffer_free_iff` leaves no other cases.

A request shorter than the trailer is checked and filled in like any other, and takes the
thread out of bounds then.
-/
import Mathlib.Data.List.TakeWhile
import Sysbench.Proofs.FileAsync
import Sysbench.Proofs.FileValidation

namespace Sysbench.FileIo

open List ByteStore

variable {crc32 : Crc32} {rand : ℕ → UInt8} {g : Globals} {cfg : FileConfig}
  {backlog : UInt32} {turn : KernelTurn} {s s' : AsyncThread} {r : FileRequest}
  {requests : List FileRequest}

/-! ### Runs -/

/-- The operation that a read or a write submits -/
def FileRequest.oper (r : FileRequest) : AioOper :=
  ⟨r.operation, r.size, r.fileId, r.pos⟩

/-- What the kernel does while a request is executed: it carries out operations in flight, each
once, and `io_getevents` returns some of those that it has carried out. -/
structure KernelOk (backlog : UInt32) (s : AsyncThread) (turn : KernelTurn) (r : FileRequest) :
    Prop where
  submit : turn.answer.submit = true
  before : s.performed + ↑(turn.beforeFill ++ turn.beforeSubmit) ≤ s.ctx.inFlight
  during : s.performed + ↑(turn.beforeFill ++ turn.beforeSubmit ++ turn.beforeReturn
      ++ turn.afterReturn)
    ≤ if turn.answer.malloc then (s.ctx.submitted r.oper).inFlight else s.ctx.inFlight
  returned : turn.answer.malloc = true → ¬(s.ctx.submitted r.oper).nrequests < backlog →
    Returned 1 backlog.toNat
      (s.performed + ↑(turn.beforeFill ++ turn.beforeSubmit ++ turn.beforeReturn))
      turn.answer.events

/-- The thread executes some requests, with these uses of its buffer.  It goes on after those that
return 0. -/
inductive AsyncRuns (crc32 : Crc32) (g : Globals) (cfg : FileConfig)
    (backlog : UInt32) : AsyncThread → List FileRequest → List BufferEntry → Prop where
  | nil {s : AsyncThread} : AsyncRuns crc32 g cfg backlog s [] []
  | last {s s' : AsyncThread} {r : FileRequest} {turn : KernelTurn} {rand : ℕ → UInt8}
      {status : AsyncStatus} {log : List BufferEntry} :
      KernelOk backlog s turn r →
      asyncExecuteEvent crc32 rand g cfg backlog turn s r = (s', status, log) →
      AsyncRuns crc32 g cfg backlog s [r] log
  | cons {s s' : AsyncThread} {r : FileRequest} {turn : KernelTurn} {rand : ℕ → UInt8}
      {log log' : List BufferEntry} {rs : List FileRequest} :
      KernelOk backlog s turn r →
      asyncExecuteEvent crc32 rand g cfg backlog turn s r = (s', .done, log) →
      AsyncRuns crc32 g cfg backlog s' rs log' →
      AsyncRuns crc32 g cfg backlog s (r :: rs) (log ++ log')

/-- Nothing has been submitted yet. -/
def asyncStart (buffer : List UInt8) (files : ℕ → List UInt8) : AsyncThread where
  ctx := aioStart.ctx
  performed := 0
  buffer := buffer
  files := files

/-- A read or a write that fits into the buffer. -/
structure DataRequest (room : ℕ) (r : FileRequest) : Prop where
  isData : r.IsData
  size_le : r.size ≤ room

/-- The request is within one file. -/
def FileRequest.served (cfg : FileConfig) (r : FileRequest) : Bool :=
  decide (r.fileId < cfg.numFiles ∧ r.pos + r.size ≤ cfg.fileSize)

/-- A read or a write that is served. -/
structure FitRequest (cfg : FileConfig) (room : ℕ) (r : FileRequest) : Prop extends
    DataRequest room r where
  fileId_lt : r.fileId < cfg.numFiles
  fits : r.pos + r.size ≤ cfg.fileSize

variable {room : ℕ}

theorem DataRequest.fit (hdata : DataRequest room r) (h : r.served cfg = true) :
    FitRequest cfg room r := by
  obtain ⟨hid, hfits⟩ := of_decide_eq_true h
  exact ⟨hdata, hid, hfits⟩

/-- At this use no operation is in flight; and a buffer that is validated begins with the data of
the request. -/
structure BufferFree (e : BufferEntry) : Prop where
  inFlight_eq : e.thread.ctx.inFlight = 0
  data : e.use = .validate →
    pread (e.thread.files e.request.fileId) e.request.pos e.request.size <+: e.thread.buffer

/-! ### What a request does -/

theorem oper_eq {op : FileOp} (hop : r.operation = op) :
    (⟨op, r.size, r.fileId, r.pos⟩ : AioOper) = r.oper := by
  rw [← hop]
  rfl

@[simp]
theorem perform_ctx (s : AsyncThread) (oper : AioOper) : (s.perform oper).ctx = s.ctx := by
  unfold AsyncThread.perform
  cases oper.type with
  | null | read | write | fsync => rfl

@[simp]
theorem performAll_ctx (s : AsyncThread) (opers : List AioOper) :
    (s.performAll opers).ctx = s.ctx := by
  induction opers generalizing s with
  | nil => rfl
  | cons oper opers ih => exact (ih (s.perform oper)).trans (perform_ctx s oper)

theorem perform_performed (s : AsyncThread) (oper : AioOper) :
    (s.perform oper).performed = oper ::ₘ s.performed := by
  unfold AsyncThread.perform
  cases oper.type with
  | null | read | write | fsync => rfl

theorem asyncExecuteEvent_write (h : FitRequest cfg room r) (hop : r.operation = .write) :
    asyncExecuteEvent crc32 rand g cfg backlog turn s r
      = asyncWrite crc32 rand g cfg backlog turn s r := by
  have hid := h.fileId_lt
  rw [asyncExecuteEvent, if_neg (by omega), if_neg (Nat.not_lt.mpr h.fits), if_neg (by omega), hop]

theorem asyncExecuteEvent_read (h : FitRequest cfg room r) (hop : r.operation = .read) :
    asyncExecuteEvent crc32 rand g cfg backlog turn s r
      = asyncRead crc32 g backlog turn s r := by
  have hid := h.fileId_lt
  rw [asyncExecuteEvent, if_neg (by omega), if_neg (Nat.not_lt.mpr h.fits), if_neg (by omega), hop]

variable {status : AsyncStatus} {log : List BufferEntry}

theorem asyncWrite_cases (h : asyncWrite crc32 rand g cfg backlog turn s r = (s', status, log)) :
    log = (if g.validate then [⟨.fill, r, s.performAll turn.beforeFill⟩] else []) ∧
      (status = .done →
        ∃ buf, let t := ({ s.performAll turn.beforeFill with buffer := buf }.performAll
            turn.beforeSubmit).transfer backlog turn ⟨.write, r.size, r.fileId, r.pos⟩
          s' = t.1 ∨ s' = { t.1 with ctx := t.1.ctx.count .other 1 }) := by
  unfold asyncWrite at h
  dsimp only at h
  split at h
  · cases h
    exact ⟨rfl, nofun⟩
  · rename_i buf _
    split at h
    · cases h
      exact ⟨rfl, fun _ => ⟨buf, .inl rfl⟩⟩
    · split at h
      · split at h
        · cases h
          exact ⟨rfl, fun _ => ⟨buf, .inr rfl⟩⟩
        · cases h
          exact ⟨rfl, fun _ => ⟨buf, .inl rfl⟩⟩
      · cases h
        exact ⟨rfl, fun _ => ⟨buf, .inl rfl⟩⟩

theorem asyncRead_cases (h : asyncRead crc32 g backlog turn s r = (s', status, log)) :
    let t := ((s.performAll turn.beforeFill).performAll turn.beforeSubmit).transfer backlog turn
      ⟨.read, r.size, r.fileId, r.pos⟩
    s' = t.1 ∧ log = if t.2 = true ∧ g.validate = true then [⟨.validate, r, t.1⟩] else [] := by
  unfold asyncRead at h
  dsimp only at h ⊢
  split at h
  · rename_i hfail
    cases h
    simp [hfail]
  · rename_i hok
    have hok := Bool.eq_true_of_not_eq_false hok
    split at h
    · rename_i hvalidate
      cases h
      rw [if_pos ⟨hok, hvalidate⟩]
      exact ⟨rfl, rfl⟩
    · rename_i hvalidate
      cases h
      rw [if_neg fun hc => hvalidate hc.2]
      exact ⟨rfl, rfl⟩

/-- In validation mode, the thread does not survive a write that has no room for the trailer. -/
theorem asyncWrite_short (hvalidate : g.validate = true) (hshort : r.size < trailerLength)
    (h : asyncWrite crc32 rand g cfg backlog turn s r = (s', status, log)) : status ≠ .done := by
  have hfault : fillForWrite crc32 rand g (s.performAll turn.beforeFill).buffer (r.size % 2 ^ 32)
      r.pos = .error .bufferIndex := by
    unfold trailerLength at hshort
    rw [fillForWrite, if_pos hvalidate]
    refine if_neg fun hbound => ?_
    unfold trailerLength at hbound
    omega
  unfold asyncWrite at h
  dsimp only at h
  rw [hfault] at h
  cases h
  simp

/-! ### Requests that are not served -/

/-- The thread ends with a request that is not served, and has not used the buffer for it. -/
theorem unserved_log (hserved : r.served cfg = false)
    (h : asyncExecuteEvent crc32 rand g cfg backlog turn s r = (s', status, log)) :
    log = [] ∧ status ≠ .done := by
  have hnot := of_decide_eq_false hserved
  unfold asyncExecuteEvent at h
  split at h
  · cases h
    exact ⟨rfl, nofun⟩
  · split at h
    · cases h
      exact ⟨rfl, nofun⟩
    · rw [if_pos (by omega)] at h
      cases h
      exact ⟨rfl, nofun⟩

theorem unvalidated_log (hvalidate : g.validate = false) (hdata : DataRequest room r)
    (h : asyncExecuteEvent crc32 rand g cfg backlog turn s r = (s', status, log)) :
    log = [] := by
  unfold asyncExecuteEvent at h
  split at h
  · cases h
    rfl
  · split at h
    · cases h
      rfl
    · split at h
      · cases h
        rfl
      · rcases hdata.isData with hop | hop
        · rw [hop] at h
          rw [(asyncRead_cases h).2, hvalidate]
          exact if_neg fun hc => nomatch hc.2
        · rw [hop] at h
          rw [(asyncWrite_cases h).1, hvalidate]
          rfl

variable {rs rest : List FileRequest}

/-- What holds of the buffer at every use, if each request keeps `P`. -/
theorem AsyncRuns.entries {P : AsyncThread → Prop} {Q : BufferEntry → Prop}
    (h : AsyncRuns crc32 g cfg backlog s rs log) (hs : P s)
    (hstep : ∀ r ∈ rs, ∀ {s s' turn rand status log}, P s → KernelOk backlog s turn r →
      asyncExecuteEvent crc32 rand g cfg backlog turn s r = (s', status, log) →
      (∀ e ∈ log, Q e) ∧ (status = .done → P s')) : ∀ e ∈ log, Q e := by
  induction h with
  | nil => exact nofun
  | last hok hexec => exact (hstep _ mem_cons_self hs hok hexec).1
  | cons hok hexec _ ih =>
    obtain ⟨hlog, hnext⟩ := hstep _ mem_cons_self hs hok hexec
    intro e he
    rcases mem_append.mp he with he | he
    · exact hlog e he
    · exact ih (hnext rfl) (fun r hr => hstep r (mem_cons_of_mem _ hr)) e he

theorem runs_unvalidated (hvalidate : g.validate = false) (hdata : ∀ r ∈ rs, DataRequest room r)
    (h : AsyncRuns crc32 g cfg backlog s rs log) : ∀ e ∈ log, BufferFree e := by
  refine h.entries (P := fun _ => True) trivial ?_
  intro r hr s s' turn rand status log _ _ hexec
  rw [unvalidated_log hvalidate (hdata r hr) hexec]
  exact ⟨nofun, fun _ => trivial⟩

theorem unserved_of_takeWhile (h : (r :: rs).takeWhile (·.served cfg) = []) :
    r.served cfg = false := by
  rw [takeWhile_cons] at h
  split at h
  · cases h
  · rename_i hserved
    exact Bool.eq_false_of_not_eq_true hserved

theorem runs_unserved (hrs : rs <+: requests)
    (hnone : requests.takeWhile (·.served cfg) = []) (h : AsyncRuns crc32 g cfg backlog s rs log) :
    log = [] := by
  obtain ⟨rest, rfl⟩ := hrs
  cases h with
  | nil => rfl
  | last _ hexec => exact (unserved_log (unserved_of_takeWhile hnone) hexec).1
  | cons _ hexec _ => exact absurd rfl (unserved_log (unserved_of_takeWhile hnone) hexec).2

/-! ### One operation at a time -/

/-- The thread has no operation in flight. -/
structure Quiet (s : AsyncThread) : Prop where
  nrequests_eq : s.ctx.nrequests = 0
  inFlight_eq : s.ctx.inFlight = 0
  performed_eq : s.performed = 0

theorem quiet_start (buffer : List UInt8) (files : ℕ → List UInt8) :
    Quiet (asyncStart buffer files) :=
  ⟨rfl, rfl, rfl⟩

/-- With a backlog of one, the first operation is waited for. -/
theorem Quiet.full (hq : Quiet s) (oper : AioOper) : ¬(s.ctx.submitted oper).nrequests < 1 := by
  show ¬s.ctx.nrequests + 1 < 1
  rw [hq.nrequests_eq]
  decide

/-- There is nothing for the kernel to do before the submission. -/
theorem KernelOk.nothing_before (hq : Quiet s) (h : KernelOk backlog s turn r) :
    turn.beforeFill = [] ∧ turn.beforeSubmit = [] := by
  have hbefore := h.before
  rw [hq.performed_eq, hq.inFlight_eq, Multiset.zero_add, Multiset.le_zero,
    Multiset.coe_eq_zero] at hbefore
  exact append_eq_nil_iff.mp hbefore

/-- Without memory for an operation there is nothing to do afterwards either. -/
theorem KernelOk.nothing_during (hq : Quiet s) (h : KernelOk backlog s turn r)
    (hmalloc : turn.answer.malloc = false) : turn.beforeReturn = [] ∧ turn.afterReturn = [] := by
  obtain ⟨hfill, hsubmit⟩ := h.nothing_before hq
  have hduring := h.during
  rw [hq.performed_eq, hq.inFlight_eq, hmalloc, hfill, hsubmit] at hduring
  have hnil := (Multiset.coe_eq_zero _).mp (Multiset.le_zero.mp hduring)
  exact append_eq_nil_iff.mp hnil

/-- With a backlog of one, the operation is carried out and reported before the call returns. -/
theorem KernelOk.one_during (hq : Quiet s) (h : KernelOk 1 s turn r)
    (hmalloc : turn.answer.malloc = true) :
    turn.beforeReturn = [r.oper] ∧ turn.afterReturn = [] ∧
      ∃ e, turn.answer.events = [e] ∧ e.oper = r.oper ∧ e.res = e.oper.fullResult := by
  obtain ⟨hfill, hsubmit⟩ := h.nothing_before hq
  have hret := h.returned hmalloc (hq.full r.oper)
  have hduring := h.during
  rw [hmalloc, if_pos rfl] at hduring
  rw [hq.performed_eq, hfill, hsubmit, Multiset.zero_add] at hret hduring
  have hflight : (s.ctx.submitted r.oper).inFlight = {r.oper} := by
    show r.oper ::ₘ s.ctx.inFlight = _
    rw [hq.inFlight_eq]
    rfl
  rw [hflight] at hduring
  have hcard := Multiset.card_le_card hduring
  have hlen := hret.length_le
  have hone := hret.min_le
  simp only [nil_append, Multiset.coe_card, length_append, Multiset.card_singleton]
    at hcard hlen
  have hafter : turn.afterReturn = [] := eq_nil_of_length_eq_zero (by omega)
  obtain ⟨oper, hoper⟩ := length_eq_one_iff.mp (by omega : turn.beforeReturn.length = 1)
  obtain ⟨e, he⟩ := length_eq_one_iff.mp (by omega : turn.answer.events.length = 1)
  have hdistinct := hret.distinct
  rw [hoper, hafter] at hduring
  rw [hoper, he] at hdistinct
  have hoper_eq : oper = r.oper := Multiset.mem_singleton.mp (Multiset.mem_of_le hduring (by simp))
  have he_eq : e.oper = oper := Multiset.mem_singleton.mp (Multiset.mem_of_le hdistinct (by simp))
  refine ⟨by rw [hoper, hoper_eq], hafter, e, he, he_eq.trans hoper_eq, ?_⟩
  exact hret.successful e (by rw [he]; exact mem_singleton_self e)

theorem transfer_without_memory (hq : Quiet s) (h : KernelOk backlog s turn r)
    (hmalloc : turn.answer.malloc = false) :
    Quiet (s.transfer backlog turn r.oper).1 ∧
      (s.transfer backlog turn r.oper).2 = decide (r.size = 0) := by
  obtain ⟨hreturn, hafter⟩ := h.nothing_during hq hmalloc
  have hsubmit : fileSubmitOrWait backlog turn.answer r.oper s.ctx
      = (s.ctx, some "Failed to allocate AIO operation!") := if_pos hmalloc
  have hreported : turn.answer.reported backlog r.oper s.ctx = [] := by
    refine if_neg fun hc => ?_
    rw [hmalloc] at hc
    cases hc.1
  unfold AsyncThread.transfer
  rw [hsubmit, hreported, hreturn, hafter]
  refine ⟨⟨hq.nrequests_eq, hq.inFlight_eq, ?_⟩, rfl⟩
  exact (Multiset.sub_zero _).trans hq.performed_eq

theorem transfer_one (hq : Quiet s) (h : KernelOk 1 s turn r)
    (hmalloc : turn.answer.malloc = true) :
    Quiet (s.transfer 1 turn r.oper).1 ∧
      (s.transfer 1 turn r.oper).1.buffer = (s.perform r.oper).buffer ∧
      (s.transfer 1 turn r.oper).1.files = (s.perform r.oper).files := by
  obtain ⟨hreturn, hafter, e, he, heoper, heres⟩ := h.one_during hq hmalloc
  have hreported : turn.answer.reported 1 r.oper s.ctx = [e] := by
    rw [SubmitAnswer.reported, if_pos ⟨hmalloc, h.submit, hq.full r.oper⟩, he]
  have hsubmit : fileSubmitOrWait 1 turn.answer r.oper s.ctx
      = fileWait [e] (s.ctx.submitted r.oper) := by
    rw [fileSubmitOrWait_eq hmalloc h.submit, if_neg (hq.full r.oper), he]
  have hgone : ({r.oper} : Multiset AioOper) - {e.oper} = 0 := by
    rw [heoper]
    simp
  have hwait : (fileWait [e] (s.ctx.submitted r.oper)).1.nrequests = 0 ∧
      (fileWait [e] (s.ctx.submitted r.oper)).1.inFlight = 0 := by
    have hcount : (s.ctx.submitted r.oper).nrequests = 1 := by
      show s.ctx.nrequests + 1 = 1
      rw [hq.nrequests_eq]
      rfl
    obtain ⟨-, hzero, hflight, -⟩ := waitLoop_eq [e] { s.ctx.submitted r.oper with
      inFlight := (s.ctx.submitted r.oper).inFlight - {e.oper} }
      (fun e' he' => by rw [mem_singleton.mp he']; exact heres)
      (by rw [hcount]; exact Nat.le_refl 1)
    refine ⟨UInt32.toNat_inj.mp (hzero.trans ?_), hflight.trans ?_⟩
    · rw [hcount]
      rfl
    · show (r.oper ::ₘ s.ctx.inFlight) - {e.oper} = 0
      rw [hq.inFlight_eq]
      exact hgone
  unfold AsyncThread.transfer
  rw [hsubmit, hreported, hreturn, hafter]
  refine ⟨⟨hwait.1, hwait.2, ?_⟩, rfl, rfl⟩
  show (s.perform r.oper).performed - {e.oper} = 0
  rw [perform_performed, hq.performed_eq]
  exact hgone

theorem KernelOk.congr (h : KernelOk backlog s turn r) (hctx : s'.ctx = s.ctx)
    (hperformed : s'.performed = s.performed) : KernelOk backlog s' turn r := by
  refine ⟨h.submit, ?_, ?_, ?_⟩
  · rw [hctx, hperformed]
    exact h.before
  · rw [hctx, hperformed]
    exact h.during
  · rw [hctx, hperformed]
    exact h.returned

theorem Quiet.congr (h : Quiet s) (hctx : s'.ctx = s.ctx)
    (hperformed : s'.performed = s.performed) : Quiet s' := by
  refine ⟨?_, ?_, hperformed.trans h.performed_eq⟩
  · rw [hctx]
    exact h.nrequests_eq
  · rw [hctx]
    exact h.inFlight_eq

theorem Quiet.transfer (hq : Quiet s) (h : KernelOk 1 s turn r) :
    Quiet (s.transfer 1 turn r.oper).1 := by
  cases hmalloc : turn.answer.malloc with
  | false => exact (transfer_without_memory hq h hmalloc).1
  | true => exact (transfer_one hq h hmalloc).1

/-- A write finds the buffer free if nothing is in flight before, whatever the backlog. -/
theorem write_bufferFree (hq : Quiet s) (hfit : FitRequest cfg room r) (hop : r.operation = .write)
    (h : asyncExecuteEvent crc32 rand g cfg backlog turn s r = (s', status, log)) :
    ∀ e ∈ log, BufferFree e := by
  rw [asyncExecuteEvent_write hfit hop] at h
  obtain ⟨hlog, -⟩ := asyncWrite_cases h
  intro e he
  rw [hlog] at he
  split at he
  · rw [mem_singleton.mp he]
    refine ⟨?_, nofun⟩
    rw [performAll_ctx]
    exact hq.inFlight_eq
  · cases he

/-- With a backlog of one, a request finds the buffer free and leaves it free. -/
theorem request_bufferFree (hq : Quiet s) (hfit : FitRequest cfg room r) (hok : KernelOk 1 s turn r)
    (h : asyncExecuteEvent crc32 rand g cfg 1 turn s r = (s', status, log)) :
    (∀ e ∈ log, BufferFree e) ∧ (status = .done → Quiet s') := by
  obtain ⟨hfill, hsubmit⟩ := hok.nothing_before hq
  rcases hfit.isData with hop | hop
  · have hoper := oper_eq hop
    rw [asyncExecuteEvent_read hfit hop] at h
    obtain ⟨hs', hlog⟩ := asyncRead_cases h
    rw [hfill, hsubmit, hoper] at hs' hlog
    have hquiet : Quiet (s.transfer 1 turn r.oper).1 := hq.transfer hok
    refine ⟨fun e he => ?_, fun _ => hs' ▸ hquiet⟩
    rw [hlog] at he
    split at he
    · rename_i hdone
      rw [mem_singleton.mp he]
      refine ⟨hquiet.inFlight_eq, fun _ => ?_⟩
      cases hmalloc : turn.answer.malloc with
      | false =>
        -- only a request for nothing goes on without memory
        have hsize : r.size = 0 :=
          of_decide_eq_true ((transfer_without_memory hq hok hmalloc).2.symm.trans hdone.1)
        show pread _ r.pos r.size <+: _
        rw [hsize, pread, take_zero]
        exact nil_prefix
      | true =>
        obtain ⟨-, hbuffer, hfiles⟩ := transfer_one hq hok hmalloc
        show pread ((s.transfer 1 turn r.oper).1.files r.fileId) r.pos r.size
          <+: (s.transfer 1 turn r.oper).1.buffer
        rw [hbuffer, hfiles]
        rw [← hoper]
        exact prefix_append _ _
    · cases he
  · have hoper := oper_eq hop
    refine ⟨write_bufferFree hq hfit hop h, fun hdone => ?_⟩
    rw [asyncExecuteEvent_write hfit hop] at h
    obtain ⟨buf, hs'⟩ := (asyncWrite_cases h).2 hdone
    rw [hfill, hsubmit, hoper] at hs'
    have hq' : Quiet { s with buffer := buf } := hq.congr rfl rfl
    have hok' : KernelOk 1 { s with buffer := buf } turn r := hok.congr rfl rfl
    have hquiet := hq'.transfer hok'
    rcases hs' with rfl | rfl
    · exact hquiet
    · exact ⟨hquiet.nrequests_eq, hquiet.inFlight_eq, hquiet.performed_eq⟩

theorem runs_bufferFree (hdata : ∀ r ∈ rs, DataRequest room r)
    (h : AsyncRuns crc32 g cfg 1 s rs log) (hq : Quiet s) : ∀ e ∈ log, BufferFree e := by
  refine h.entries hq ?_
  intro r hr s s' turn rand status log hq hok hexec
  cases hserved : r.served cfg with
  | false =>
    obtain ⟨rfl, hfailed⟩ := unserved_log hserved hexec
    exact ⟨nofun, fun hdone => absurd hdone hfailed⟩
  | true => exact request_bufferFree hq ((hdata r hr).fit hserved) hok hexec

/-- The first request that is served is a write, and the thread ends before the second. -/
theorem runs_one_write (hvalidate : g.validate = true)
    (hdata : ∀ r ∈ requests, DataRequest room r) (hrs : rs <+: requests)
    (hfirst : requests.takeWhile (·.served cfg) = r :: rest) (hop : r.operation = .write)
    (hlast : rest = [] ∨ r.size < trailerLength)
    (h : AsyncRuns crc32 g cfg backlog s rs log) (hq : Quiet s) : ∀ e ∈ log, BufferFree e := by
  cases requests with
  | nil => cases hfirst
  | cons r' requests =>
    have hserved : r'.served cfg = true := by
      by_contra hserved
      rw [takeWhile_cons, if_neg hserved] at hfirst
      cases hfirst
    rw [takeWhile_cons, if_pos hserved] at hfirst
    obtain ⟨rfl, hrest⟩ := cons.inj hfirst
    have hfit := (hdata r' mem_cons_self).fit hserved
    cases h with
    | nil => exact nofun
    | last _ hexec =>
      obtain ⟨rfl, -⟩ := cons_prefix_cons.mp hrs
      exact write_bufferFree hq hfit hop hexec
    | cons _ hexec hruns =>
      obtain ⟨rfl, hrs'⟩ := cons_prefix_cons.mp hrs
      rcases hlast with rfl | hshort
      · rw [runs_unserved hrs' hrest hruns, append_nil]
        exact write_bufferFree hq hfit hop hexec
      · rw [asyncExecuteEvent_write hfit hop] at hexec
        exact absurd rfl (asyncWrite_short hvalidate hshort hexec)

/-! ### Two operations at a time -/

/-- The kernel does nothing, and the calls succeed. -/
def idleTurn : KernelTurn where
  beforeFill := []
  beforeSubmit := []
  beforeReturn := []
  afterReturn := []
  answer := ⟨true, true, []⟩
  fsync := true

/-- The kernel carries out one operation, and reports it if there is a wait. -/
def reportTurn (oper : AioOper) : KernelTurn :=
  { idleTurn with beforeReturn := [oper], answer := ⟨true, true, [⟨oper, oper.fullResult⟩]⟩ }

/-- One operation is in flight, and has not taken effect. -/
structure Busy (s : AsyncThread) (oper : AioOper) : Prop where
  nrequests_eq : s.ctx.nrequests = 1
  inFlight_eq : s.ctx.inFlight = {oper}
  performed_eq : s.performed = 0

theorem idleTurn_ok (hroom : (s.ctx.submitted r.oper).nrequests < backlog) (hq : Quiet s) :
    KernelOk backlog s idleTurn r := by
  refine ⟨rfl, ?_, ?_, fun _ hfull => absurd hroom hfull⟩
  · rw [hq.performed_eq, hq.inFlight_eq]
    exact le_refl _
  · rw [hq.performed_eq]
    exact Multiset.zero_le _

theorem transfer_room {oper : AioOper} (hroom : (s.ctx.submitted oper).nrequests < backlog) :
    s.transfer backlog idleTurn oper = ({ s with ctx := s.ctx.submitted oper }, true) := by
  have hsubmit : fileSubmitOrWait backlog idleTurn.answer oper s.ctx
      = (s.ctx.submitted oper, none) := by
    rw [fileSubmitOrWait_eq rfl rfl, if_pos hroom]
  have hreported : idleTurn.answer.reported backlog oper s.ctx = [] :=
    if_neg fun hc => hc.2.2 hroom
  have hnone : s.performed - ↑(([] : List AioEvent).map AioEvent.oper) = s.performed :=
    Multiset.sub_zero _
  unfold AsyncThread.transfer
  rw [hsubmit, hreported]
  show (({ s with
    ctx := s.ctx.submitted oper
    performed := s.performed - ↑(([] : List AioEvent).map AioEvent.oper) } : AsyncThread), true) = _
  rw [hnone]

theorem reportTurn_ok (hbacklog : 1 ≤ backlog.toNat) {oper : AioOper} (hb : Busy s oper) :
    KernelOk backlog s (reportTurn oper) r := by
  have hone : s.performed + ↑[oper] = {oper} := by
    rw [hb.performed_eq]
    rfl
  refine ⟨rfl, ?_, ?_, fun _ _ => ?_⟩
  · rw [hb.performed_eq]
    exact Multiset.zero_le _
  · show s.performed + ↑[oper] ≤ r.oper ::ₘ s.ctx.inFlight
    rw [hone, hb.inFlight_eq]
    exact Multiset.le_cons_self _ _
  · show Returned 1 backlog.toNat (s.performed + ↑[oper]) [⟨oper, oper.fullResult⟩]
    rw [hone]
    refine ⟨Nat.le_refl 1, hbacklog, le_refl _, fun e he => ?_⟩
    rw [mem_singleton.mp he]

/-- A second operation is in flight when the call returns, even if it has waited for the first. -/
theorem transfer_report (backlog : UInt32) (oper : AioOper) {first : AioOper}
    (hb : Busy s first) :
    (s.transfer backlog (reportTurn first) oper).2 = true ∧
      (s.transfer backlog (reportTurn first) oper).1.ctx.inFlight ≠ 0 := by
  have hflight : (s.ctx.submitted oper).inFlight = oper ::ₘ {first} := by
    show oper ::ₘ s.ctx.inFlight = _
    rw [hb.inFlight_eq]
  have hsubmit : (fileSubmitOrWait backlog (reportTurn first).answer oper s.ctx).2 = none ∧
      (fileSubmitOrWait backlog (reportTurn first).answer oper s.ctx).1.inFlight ≠ 0 := by
    rw [fileSubmitOrWait_eq rfl rfl]
    by_cases hroom : (s.ctx.submitted oper).nrequests < backlog
    · rw [if_pos hroom]
      refine ⟨rfl, ?_⟩
      exact Multiset.cons_ne_zero
    · rw [if_neg hroom]
      have hcount : (s.ctx.submitted oper).nrequests = 2 := by
        show s.ctx.nrequests + 1 = 2
        rw [hb.nrequests_eq]
        rfl
      obtain ⟨hok, -, hleft, -⟩ := waitLoop_eq [⟨first, first.fullResult⟩]
        { s.ctx.submitted oper with inFlight := (s.ctx.submitted oper).inFlight - {first} }
        (fun e he => by rw [mem_singleton.mp he]) (by rw [hcount]; exact Nat.le_succ 1)
      refine ⟨hok, ?_⟩
      refine fun hzero => ?_
      have hcard := congrArg Multiset.card (hleft.symm.trans hzero)
      rw [hflight, Multiset.card_sub (Multiset.le_cons_self _ _)] at hcard
      cases hcard
  exact ⟨by
    unfold AsyncThread.transfer
    dsimp only
    rw [hsubmit.1]
    rfl, hsubmit.2⟩

theorem asyncExecuteEvent_validates (crc32 : Crc32) (rand : ℕ → UInt8)
    {t : AsyncThread} (hfit : FitRequest cfg room r) (hop : r.operation = .read)
    (hvalidate : g.validate = true) (ht : s.transfer backlog turn r.oper = (t, true))
    (hfill : turn.beforeFill = []) (hsubmit : turn.beforeSubmit = []) :
    asyncExecuteEvent crc32 rand g cfg backlog turn s r
      = (t, asyncValidate crc32 t r, [⟨.validate, r, t⟩]) := by
  have hnothing : (s.performAll []).performAll [] = s := rfl
  rw [asyncExecuteEvent_read hfit hop]
  unfold asyncRead
  rw [hfill, hsubmit, oper_eq hop, hnothing]
  dsimp only
  rw [ht, if_pos hvalidate]
  rfl

theorem exists_asyncWrite (crc32 : Crc32) (rand : ℕ → UInt8) (backlog : UInt32)
    (turn : KernelTurn) (hfit : FitRequest cfg room r) (hop : r.operation = .write)
    (hvalidate : g.validate = true) (htrailer : trailerLength ≤ r.size) (hroom : room < 2 ^ 32)
    (hfill : turn.beforeFill = []) (hsubmit : turn.beforeSubmit = [])
    (hlen : s.buffer.length = room) :
    ∃ buf s' status, asyncExecuteEvent crc32 rand g cfg backlog turn s r
        = (s', status, [⟨.fill, r, s⟩]) ∧
      let t := ({ s with buffer := buf } : AsyncThread).transfer backlog turn r.oper
      (t.2 = true → turn.fsync = true → status = .done) ∧
        (s' = t.1 ∨ s' = { t.1 with ctx := t.1.ctx.count .other 1 }) := by
  have hsize := hfit.size_le
  obtain ⟨buf, hbuf, -⟩ := fileFillBuffer_sealed crc32 rand r.pos htrailer
    (by rw [hlen]; exact hsize : r.size ≤ s.buffer.length) (by omega)
  have hfilled : fillForWrite crc32 rand g s.buffer (r.size % 2 ^ 32) r.pos = .ok buf := by
    rw [fillForWrite, if_pos hvalidate, Nat.mod_eq_of_lt (by omega), hbuf]
  have hnothing (s : AsyncThread) : s.performAll [] = s := rfl
  rw [asyncExecuteEvent_write hfit hop]
  unfold asyncWrite
  rw [hfill, hsubmit, oper_eq hop, hnothing]
  dsimp only
  rw [hfilled, if_pos hvalidate]
  refine ⟨buf, ?_⟩
  dsimp only
  rw [hnothing]
  split
  · rename_i hfailed
    refine ⟨_, _, rfl, fun ht => ?_, .inl rfl⟩
    cases hfailed.symm.trans ht
  · split
    · split
      · exact ⟨_, _, rfl, fun _ _ => rfl, .inr rfl⟩
      · rename_i hfsync
        exact ⟨_, _, rfl, fun _ hc => absurd hc hfsync, .inl rfl⟩
    · exact ⟨_, _, rfl, fun _ _ => rfl, .inl rfl⟩

/-! ### When the buffer is free -/

/-- Some run over the requests uses the buffer while an operation is in flight. -/
def UsedInFlight (crc32 : Crc32) (g : Globals) (cfg : FileConfig) (backlog : UInt32)
    (s : AsyncThread) (rs : List FileRequest) : Prop :=
  ∃ log, AsyncRuns crc32 g cfg backlog s rs log ∧ ∃ e ∈ log, e.thread.ctx.inFlight ≠ 0

section Larger

variable {buffer : List UInt8} {files : ℕ → List UInt8}

theorem start_room (hbacklog : 1 < backlog) (oper : AioOper) :
    ((asyncStart buffer files).ctx.submitted oper).nrequests < backlog :=
  hbacklog

/-- A read is validated although nobody has waited for it. -/
theorem read_usedInFlight (hbacklog : 1 < backlog) (hvalidate : g.validate = true)
    (hfit : FitRequest cfg room r) (hop : r.operation = .read) :
    UsedInFlight crc32 g cfg backlog (asyncStart buffer files) [r] := by
  have hroom : ((asyncStart buffer files).ctx.submitted r.oper).nrequests < backlog :=
    start_room hbacklog r.oper
  have hexec := asyncExecuteEvent_validates crc32 (fun _ => 0) hfit hop hvalidate
    (transfer_room hroom) rfl rfl
  refine ⟨_, .last (idleTurn_ok hroom (quiet_start buffer files)) hexec, _,
    mem_cons_self, ?_⟩
  have hflight : ((asyncStart buffer files).ctx.submitted r.oper).inFlight = r.oper ::ₘ 0 := rfl
  intro hzero
  exact Multiset.cons_ne_zero (hflight.symm.trans hzero)

/-- After a write, a second write is filled in, or a read validated, while one is in flight. -/
theorem second_usedInFlight (hbacklog : 1 < backlog) (hvalidate : g.validate = true)
    (hbuffer : buffer.length < 2 ^ 32) (hfit : FitRequest cfg buffer.length r)
    (hop : r.operation = .write) (htrailer : trailerLength ≤ r.size) {r' : FileRequest}
    (hfit' : FitRequest cfg buffer.length r') :
    UsedInFlight crc32 g cfg backlog (asyncStart buffer files) [r, r'] := by
  have hone : 1 ≤ backlog.toNat := Nat.le_of_lt (UInt32.lt_iff_toNat_lt.mp hbacklog)
  have hok : KernelOk backlog (asyncStart buffer files) idleTurn r :=
    idleTurn_ok (start_room hbacklog r.oper) (quiet_start buffer files)
  have hlen : (asyncStart buffer files).buffer.length = buffer.length := rfl
  obtain ⟨buf, s, status, hexec, hdone, hs⟩ := exists_asyncWrite crc32 (fun _ => 0) backlog
    idleTurn hfit hop hvalidate htrailer hbuffer rfl rfl hlen
  have htransfer : ({ asyncStart buffer files with buffer := buf } : AsyncThread).transfer backlog
      idleTurn r.oper = ({ asyncStart buffer files with
        buffer := buf, ctx := (asyncStart buffer files).ctx.submitted r.oper }, true) :=
    transfer_room (start_room hbacklog r.oper)
  rw [htransfer] at hs hdone
  rw [hdone rfl rfl] at hexec
  have hbusy : Busy s r.oper := by
    rcases hs with rfl | rfl <;> exact ⟨rfl, rfl, rfl⟩
  have hok' : KernelOk backlog s (reportTurn r.oper) r' := reportTurn_ok hone hbusy
  rcases hfit'.isData with hop' | hop'
  · obtain ⟨hret, hflight⟩ := transfer_report backlog r'.oper hbusy
    have hexec' := asyncExecuteEvent_validates crc32 (fun _ => 0) hfit' hop' hvalidate
      (Prod.ext rfl hret) rfl rfl
    exact ⟨_, .cons hok hexec (.last hok' hexec'), _, mem_append_right _ mem_cons_self, hflight⟩
  · obtain ⟨s', status', log, hexec'⟩ : ∃ s' status' log, asyncExecuteEvent crc32 (fun _ => 0) g cfg
        backlog (reportTurn r.oper) s r' = (s', status', log) := ⟨_, _, _, rfl⟩
    have hlog := (asyncWrite_cases ((asyncExecuteEvent_write hfit' hop').symm.trans hexec')).1
    rw [if_pos hvalidate] at hlog
    refine ⟨_, .cons hok hexec (.last hok' hexec'), ⟨.fill, r', s⟩,
      mem_append_right _ (hlog ▸ mem_cons_self), ?_⟩
    show s.ctx.inFlight ≠ 0
    rw [hbusy.inFlight_eq]
    exact Multiset.singleton_ne_zero _

/-- With a larger backlog and validation on, the first one or two requests that are served will do,
unless the first is a write and the last to be executed. -/
theorem exists_usedInFlight (hbacklog : 1 < backlog) (hvalidate : g.validate = true)
    (hbuffer : buffer.length < 2 ^ 32)
    (hdata : ∀ r ∈ requests, DataRequest buffer.length r)
    (hsome : requests.takeWhile (·.served cfg) ≠ [])
    (hsingle : ∀ r rest, requests.takeWhile (·.served cfg) = r :: rest → r.operation = .write →
      rest ≠ [] ∧ ¬r.size < trailerLength) :
    ∃ rs, rs <+: requests ∧ UsedInFlight crc32 g cfg backlog (asyncStart buffer files) rs := by
  cases hserved : requests.takeWhile (·.served cfg) with
  | nil => exact absurd hserved hsome
  | cons r rest =>
    have hfit : ∀ r' ∈ r :: rest, FitRequest cfg buffer.length r' := by
      intro r' hr'
      rw [← hserved] at hr'
      exact (hdata r' (takeWhile_subset _ hr')).fit (mem_takeWhile_imp hr')
    have hprefix : r :: rest <+: requests := hserved ▸ takeWhile_prefix _
    have hr := hfit r mem_cons_self
    rcases hr.isData with hop | hop
    · exact ⟨[r], (prefix_append [r] rest).trans hprefix,
        read_usedInFlight hbacklog hvalidate hr hop⟩
    · obtain ⟨hne, hlong⟩ := hsingle r rest hserved hop
      cases rest with
      | nil => exact absurd rfl hne
      | cons r' rest =>
        have hr' := hfit r' (mem_cons_of_mem _ mem_cons_self)
        exact ⟨[r, r'], (prefix_append [r, r'] rest).trans hprefix,
          second_usedInFlight hbacklog hvalidate hbuffer hr hop (Nat.not_lt.mp hlong) hr'⟩

end Larger

/-- Whatever the kernel does, the thread uses its buffer only while it is free: with validation off,
with a backlog of one, or if of the requests up to the first that is not served there is none, or
the first is a write and either the only one or so short that the thread does not survive it. -/
theorem buffer_free_iff (crc32 : Crc32) (g : Globals) (cfg : FileConfig)
    (backlog : UInt32) (hbacklog : 1 ≤ backlog.toNat) (buffer : List UInt8)
    (hbuffer : buffer.length < 2 ^ 32) (files : ℕ → List UInt8) (requests : List FileRequest)
    (hdata : ∀ r ∈ requests, DataRequest buffer.length r) :
    (∀ rs log, rs <+: requests → AsyncRuns crc32 g cfg backlog (asyncStart buffer files) rs log →
      ∀ e ∈ log, BufferFree e) ↔
      g.validate = false ∨ backlog = 1 ∨ requests.takeWhile (·.served cfg) = [] ∨
        ∃ r rest, requests.takeWhile (·.served cfg) = r :: rest ∧ r.operation = .write ∧
          (rest = [] ∨ r.size < trailerLength) := by
  constructor
  · intro h
    by_contra hcond
    simp only [not_or, not_exists, not_and] at hcond
    obtain ⟨hvalidate, hne, hsome, hsingle⟩ := hcond
    have hvalidate := Bool.eq_true_of_not_eq_false hvalidate
    have hlarger : 1 < backlog := by
      have hne' : backlog.toNat ≠ 1 := fun hc => hne (UInt32.toNat_inj.mp hc)
      show 1 < backlog.toNat
      omega
    obtain ⟨rs, hrs, log, hrun, e, he, hflight⟩ :=
      exists_usedInFlight hlarger hvalidate hbuffer hdata hsome hsingle
    exact hflight (h rs log hrs hrun e he).inFlight_eq
  · rintro hcond rs log hrs hrun
    have hdata' : ∀ r ∈ rs, DataRequest buffer.length r := fun r hr => hdata r (hrs.subset hr)
    have hq := quiet_start buffer files
    cases hvalidate : g.validate with
    | false => exact runs_unvalidated hvalidate hdata' hrun
    | true =>
      rcases hcond with hoff | rfl | hnone | ⟨r, rest, hfirst, hop, hlast⟩
      · exact nomatch hvalidate.symm.trans hoff
      · exact runs_bufferFree hdata' hrun hq
      · rw [runs_unserved hrs hnone hrun]
        exact nofun
      · exact runs_one_write hvalidate hdata hrs hfirst hop hlast hrun hq

/-- A read of 16 bytes, the whole of a file -/
def sixteenRead : FileRequest := ⟨0, 0, 16, .read⟩

/-- One file of 16 bytes -/
def sixteenConfig : FileConfig :=
  { asyncConfig with totalSize := 16, fileSize := 16 }

/-- The buffer has zeros, the file sevens. -/
def sixteenStart : AsyncThread :=
  asyncStart (List.replicate 16 0) fun _ => List.replicate 16 7

theorem sixteenRead_data : ∀ r ∈ [sixteenRead], DataRequest 16 r := by
  intro r hr
  rw [mem_singleton.mp hr]
  exact ⟨.inl rfl, Nat.le_refl 16⟩

/-- With a backlog of one, the read has been carried out when it is validated. -/
theorem backlog_of_one_is_free :
    ∃ e, AsyncRuns (fun _ => 0) ⟨"run", 1, true⟩ sixteenConfig 1 sixteenStart [sixteenRead] [e] ∧
      e.use = .validate ∧ BufferFree e := by
  have hok : KernelOk 1 sixteenStart (reportTurn sixteenRead.oper) sixteenRead := by
    refine ⟨rfl, le_refl _, le_refl _, fun _ _ => ?_⟩
    refine ⟨Nat.le_refl 1, Nat.le_refl 1, le_refl _, fun e he => ?_⟩
    rw [mem_singleton.mp he]
  have hfit : FitRequest sixteenConfig 16 sixteenRead :=
    (sixteenRead_data _ mem_cons_self).fit (by decide)
  generalize ht : sixteenStart.transfer 1 (reportTurn sixteenRead.oper) sixteenRead.oper = t
  have hread : t.2 = true := by
    rw [← ht]
    rfl
  have hexec := asyncExecuteEvent_validates (g := ⟨"run", 1, true⟩) (fun _ => 0) (fun _ => 0) hfit
    rfl rfl (ht.trans (Prod.ext rfl hread)) rfl rfl
  have hrun := AsyncRuns.last hok hexec
  have hfree := (buffer_free_iff (fun _ => 0) ⟨"run", 1, true⟩ sixteenConfig 1 (by decide)
    (List.replicate 16 0) (by decide) (fun _ => List.replicate 16 7) [sixteenRead]
    sixteenRead_data).mpr (.inr (.inl rfl)) _ _ (prefix_refl _) hrun
  exact ⟨_, hrun, rfl, hfree _ mem_cons_self⟩

/-- With the default backlog, the first read is validated while it is in flight. -/
theorem first_read_is_validated_unread :
    ∃ s, AsyncRuns (fun _ => 0) ⟨"run", 1, true⟩ sixteenConfig 128 sixteenStart [sixteenRead]
        [⟨.validate, sixteenRead, s⟩] ∧
      s.ctx.inFlight = {sixteenRead.oper} ∧ s.buffer = List.replicate 16 0 ∧
      pread (s.files 0) 0 16 = List.replicate 16 7 ∧
      ¬BufferFree ⟨.validate, sixteenRead, s⟩ := by
  have hroom : (sixteenStart.ctx.submitted sixteenRead.oper).nrequests < 128 :=
    start_room (by decide) _
  have hfit : FitRequest sixteenConfig 16 sixteenRead :=
    (sixteenRead_data _ mem_cons_self).fit (by decide)
  have hexec := asyncExecuteEvent_validates (g := ⟨"run", 1, true⟩) (fun _ => 0) (fun _ => 0) hfit
    rfl rfl (transfer_room hroom) rfl rfl
  refine ⟨_, .last (idleTurn_ok hroom (quiet_start _ _)) hexec, rfl, rfl, by decide, fun h => ?_⟩
  exact Multiset.singleton_ne_zero _ h.inFlight_eq

end Sysbench.FileIo
