/-
What becomes of a row that `db_bulk_insert_next` has taken.

A caller takes the result 0 of `db_bulk_insert_next` for a promise, and that of
`db_bulk_insert_done` for its fulfilment.  A history of `BulkEvent`s is what the two sides know:
the rows that got a 0, and the inserts the driver answered without an error.  `Owes` reads off it
which rows have not been inserted since they were taken, each counted as often as it was taken.
These are the rows in the buffer; a flush that fails leaves them there, one that succeeds has
handed them over (`Kept`).

Two calls break this.  `db_bulk_insert_next` returns 0, and drops the row, on a closed
connection and where the result set in progress cannot be released; and
`db_bulk_insert_init` forgets the rows that are pending.  On a closed connection with rows
pending nothing is promised in vain: `db_bulk_insert_done` cannot return 0 any more.
-/
import Sysbench.Proofs.BulkBounds
import Sysbench.Proofs.DbClosed
import Sysbench.Proofs.DriverRecording

namespace Sysbench

open List CMemory Runs

variable {σ δ ρ : Type} {D : Driver σ δ ρ} {len : ℕ} {q : Bytes} {malloc : Option (ℕ → UInt8)}

/-! ### What the driver accepts in a call -/

section Accepting

variable {v v' : World (σ × List Bytes) δ ρ}

theorem releaseResults_accepted {b : Bool} (h : releaseResults D.recording v = .ok (v', b)) :
    v'.drv.2 = v.drv.2 := by
  obtain ⟨-, rfl⟩ | ⟨-, drv, rc, data, rfl, hop⟩ := releaseResults_cases h
  · rfl
  · obtain ⟨answer, -, hanswer⟩ := Option.map_eq_some_iff.mp hop
    exact congrArg (·.1.2) hanswer.symm

theorem answered_success {w : World σ δ ρ} {a : σ × DbError × RsData ρ}
    (h : ¬(!(w.answered a).2 ∧ (w.answered a).1.con.error ≠ .none)) : a.2.1 = .none := by
  by_contra he
  refine h ?_
  unfold World.answered
  simp only [if_neg he]
  exact ⟨rfl, he⟩

/-- A query takes nothing from what was accepted, and adds itself where it succeeds. -/
theorem dbQuery_accepted {text : Bytes} {r : Bool}
    (h : dbQuery D.recording v text len = .ok (v', r)) :
    v.drv.2 ⊆ v'.drv.2 ∧ (¬(!r ∧ v'.con.error ≠ .none) → text.take len ∈ v'.drv.2) := by
  unfold dbQuery at h
  split at h
  · cases h
    exact ⟨List.Subset.refl _, fun hr => absurd ⟨rfl, nofun⟩ hr⟩
  · obtain ⟨⟨v₁, b⟩, hrel, h⟩ := bind_eq_ok.mp h
    have hkept := releaseResults_accepted hrel
    cases b with
    | false =>
      cases h
      refine ⟨?_, fun hr => absurd ⟨rfl, nofun⟩ hr⟩
      rw [← hkept]
      exact List.Subset.refl _
    | true =>
      obtain ⟨hworld, hret⟩ := Prod.ext_iff.mp (Except.ok.inj h)
      simp only at hworld hret
      have hdrv : v'.drv = (D.recording.query v₁.drv text len v₁.con.rs.toRsData).1 := by
        rw [← hworld]
        exact (answered_frame _ _).1
      rw [hdrv, ← hkept]
      refine ⟨?_, fun hr => ?_⟩
      · show v₁.drv.2 ⊆ if _ then v₁.drv.2 ++ [text.take len] else v₁.drv.2
        split
        · exact subset_append_left _ _
        · exact List.Subset.refl _
      · rw [← hworld, ← hret] at hr
        have hanswer := answered_success hr
        have hnone : (D.query v₁.drv.1 text len v₁.con.rs.toRsData).2.1 = .none := hanswer
        show text.take len ∈ if _ then v₁.drv.2 ++ [text.take len] else v₁.drv.2
        rw [if_pos hnone]
        exact mem_append_right _ (mem_singleton_self _)

theorem dbBulkCommit_accepted {isLast b : Bool}
    (h : dbBulkCommit D.recording v isLast = .ok (v', b)) : v.drv.2 ⊆ v'.drv.2 := by
  unfold dbBulkCommit at h
  split at h
  · simp only at h
    split at h
    · obtain ⟨⟨v₁, rs⟩, hquery, h⟩ := bind_eq_ok.mp h
      have hsub := (dbQuery_accepted hquery).1
      split at h <;>
        · cases h
          exact hsub
    · cases h
      exact List.Subset.refl _
  · cases h
    exact List.Subset.refl _

/-- A flush that succeeds had its insert accepted. -/
theorem dbBulkDoInsert_accepted {isLast : Bool}
    (h : dbBulkDoInsert D.recording v isLast = .ok (v', 0)) (hcnt : v.con.bulkCnt ≠ 0) :
    (v.con.bulkBuffer.getD []).take v.con.bulkPtr ∈ v'.drv.2 := by
  rw [dbBulkDoInsert, if_neg hcnt] at h
  obtain ⟨⟨v₁, rs⟩, hquery, h⟩ := bind_eq_ok.mp h
  simp only at h
  split at h
  · cases h
  · rename_i hsuccess
    obtain ⟨⟨v₂, committed⟩, hcommit, h⟩ := bind_eq_ok.mp h
    have hmem := dbBulkCommit_accepted hcommit ((dbQuery_accepted hquery).2 hsuccess)
    cases committed with
    | false => cases h
    | true =>
      cases h
      exact hmem

end Accepting

/-! ### The rows in the buffer -/

/-- The buffer holds the prefix and the pending rows. -/
structure Batch (p : Bytes) (pending : List Bytes) (con : DbConn ρ) : Prop where
  buffer : ∃ buf, con.bulkBuffer = some buf ∧ buf.length = bulkPacketSize ∧
    buf.take con.bulkPtr = insertText p pending
  ptr : con.bulkPtr = (insertText p pending).length
  cnt : con.bulkCnt = pending.length
  values : con.bulkValues = p.length

section Batch

variable {w w' : World σ δ ρ} {p row : Bytes} {pending : List Bytes}

theorem Batch.same (h : Batch p pending w.con) (hsame : SameBatch w w') :
    Batch p pending w'.con := by
  refine ⟨?_, hsame.ptr.trans h.ptr, hsame.cnt.trans h.cnt, hsame.values.trans h.values⟩
  rw [hsame.buffer, hsame.ptr]
  exact h.buffer

theorem Batch.cnt_eq_zero (h : Batch p pending w.con) : w.con.bulkCnt = 0 ↔ pending = [] := by
  rw [h.cnt, length_eq_zero_iff]

theorem Batch.append (h : Batch p pending w.con) (hnul : (0 : UInt8) ∉ row) {rc : ℤ}
    (hcall : dbBulkAppend w row row.length = .ok (w', rc)) :
    rc = 0 ∧ Batch p (pending ++ [row]) w'.con ∧ w'.drv = w.drv := by
  obtain ⟨buf, hbuf, hlen, htext⟩ := h.buffer
  unfold dbBulkAppend at hcall
  simp only [hbuf, Option.getD_some, store_eq _ hnul, piece_eq h.cnt row] at hcall
  split at hcall
  · cases hcall
  · rename_i buf' hwrite
    cases hcall
    have hfit := (writeAt_eq_some hwrite).1
    have htake := take_writeAt_append hwrite
    rw [length_append, hlen] at hfit
    rw [htext, ← append_assoc, ← insertText_concat] at htake
    have hptr : w.con.bulkPtr + row.length + (if w.con.bulkCnt > 0 then 1 else 0)
        = (insertText p (pending ++ [row])).length := by
      rw [insertText_concat, length_append, h.ptr, h.cnt]
      cases pending with
      | nil => simp
      | cons r rest => simp [Nat.add_assoc]
    have hroom : (insertText p (pending ++ [row])).length + 1 ≤ bulkPacketSize := by
      rw [insertText_concat, length_append, ← h.ptr]
      omega
    have hbound : bulkPacketSize + 1 < 2 ^ 32 := by decide
    have hptr' : (w.con.bulkPtr + row.length + if w.con.bulkCnt > 0 then 1 else 0) % 2 ^ 32
        = (insertText p (pending ++ [row])).length := by
      rw [hptr]
      exact Nat.mod_eq_of_lt (by omega)
    have hcount := length_le_insertText p (pending ++ [row])
    refine ⟨rfl, ⟨⟨buf', rfl, (length_writeAt hwrite).trans hlen, ?_⟩, hptr', ?_, h.values⟩, rfl⟩
    · show buf'.take ((w.con.bulkPtr + row.length + _) % 2 ^ 32) = _
      have hle : (insertText p (pending ++ [row])).length ≤ w.con.bulkPtr
          + ((if pending = [] then row else 44 :: row) ++ [0]).length := by
        rw [insertText_concat, length_append, length_append, h.ptr]
        omega
      have hcut := congrArg (take (insertText p (pending ++ [row])).length) htake
      rw [take_take, Nat.min_eq_left hle, take_left] at hcut
      rw [hptr', hcut]
    · show (w.con.bulkCnt + 1) % 2 ^ 32 = _
      rw [length_append, length_singleton] at hcount ⊢
      rw [h.cnt]
      exact Nat.mod_eq_of_lt (by omega)

theorem Batch.flushed (h : Batch p pending w.con) (hne : pending ≠ []) (hflush : Flushed w w' 0) :
    Batch p [] w'.con := by
  obtain ⟨buf, hbuf, hlen, htext⟩ := h.buffer
  obtain ⟨hcnt, hptr, -⟩ := hflush.done rfl
  have hvalues : w'.con.bulkValues = p.length := hflush.values.trans h.values
  have hptr' : w'.con.bulkPtr = p.length :=
    (hptr fun hc => hne (h.cnt_eq_zero.mp hc)).trans hvalues
  refine ⟨⟨buf, hflush.buffer.trans hbuf, hlen, ?_⟩, ?_, hcnt, hvalues⟩
  · rw [h.ptr] at htext
    rw [hptr', take_prefix_of_insertText htext, insertText_nil]
  · rw [hptr', insertText_nil]

end Batch

/-! ### What caller and driver know -/

/-- A `db_bulk_insert_init` or a `db_bulk_insert_next` that returned 0, with the prefix or the row,
or a query of a bulk insert that the driver answered without an error. -/
inductive BulkEvent where
  | begun (p : Bytes)
  | taken (row : Bytes)
  | accepted (text : Bytes)

/-- What a call adds, with the texts that were accepted in it. -/
def bulkEvents (texts : List Bytes) : DbCall → DbRet → List BulkEvent
  | .bulkInsertInit q len _, .code rc => if rc = 0 then [.begun (q.take len)] else []
  | .bulkInsertNext q len, .code rc =>
    texts.map .accepted ++ if rc = 0 then [.taken (q.take len)] else []
  | .bulkInsertDone, _ => texts.map .accepted
  | _, _ => []

/-- A connection whose driver begins to record. -/
def World.recorded (w : World σ δ ρ) : World (σ × List Bytes) δ ρ where
  con := w.con
  freed := w.freed
  stmts := w.stmts
  nextStmt := w.nextStmt
  counters := w.counters
  drv := (w.drv, [])
  log := w.log

/-- The queries that the driver answers without an error in a call. -/
def acceptedIn (D : Driver σ δ ρ) (w : World σ δ ρ) (c : DbCall) : List Bytes :=
  match dbStep D.recording w.recorded c with
  | .ok (v, _) => v.drv.2
  | .error _ => []

/-- A call, and what the two sides learn from it. -/
def ledgerStep (D : Driver σ δ ρ) (s : World σ δ ρ × List BulkEvent) (c : DbCall) :
    Except Fault ((World σ δ ρ × List BulkEvent) × DbRet) := do
  let (w, r) ← dbStep D s.1 c
  pure ((w, s.2 ++ bulkEvents (acceptedIn D s.1 c) c r), r)

/-- The rows taken, in order -/
def takenRows (l : List BulkEvent) : List Bytes :=
  l.filterMap fun e =>
    match e with
    | .taken row => some row
    | _ => none

/-- The history falls into stretches, and each ends with an accepted insert of just the rows that
were taken in it, with a prefix that some initialisation has given. -/
inductive Settled : List BulkEvent → Prop where
  | nil : Settled []
  | insert {l rest : List BulkEvent} {p : Bytes} : Settled l → .begun p ∈ l ++ rest →
      Settled (l ++ rest ++ [.accepted (insertText p (takenRows rest))])

/-- Each row taken has been inserted once since then, but for the last ones, which are these. -/
def Owes (l : List BulkEvent) (rows : List Bytes) : Prop :=
  ∃ settled rest, l = settled ++ rest ∧ Settled settled ∧ takenRows rest = rows

section Owes

variable {l : List BulkEvent} {rows : List Bytes}

theorem takenRows_append (l l' : List BulkEvent) :
    takenRows (l ++ l') = takenRows l ++ takenRows l' :=
  filterMap_append

theorem takenRows_accepted (texts : List Bytes) :
    takenRows (texts.map BulkEvent.accepted) = [] := by
  simp [takenRows]

theorem Owes.append (h : Owes l rows) (events : List BulkEvent) :
    Owes (l ++ events) (rows ++ takenRows events) := by
  obtain ⟨settled, rest, rfl, hsettled, rfl⟩ := h
  exact ⟨settled, rest ++ events, append_assoc _ _ _, hsettled, takenRows_append _ _⟩

theorem Owes.same (h : Owes l rows) {events : List BulkEvent} (hevents : takenRows events = []) :
    Owes (l ++ events) rows := by
  have happend := h.append events
  rw [hevents, append_nil] at happend
  exact happend

/-- An insert of all rows that are owed settles the account. -/
theorem Owes.insert (h : Owes l rows) {p : Bytes} {texts : List Bytes} (hp : .begun p ∈ l)
    (htext : insertText p rows ∈ texts) : Owes (l ++ texts.map .accepted) [] := by
  obtain ⟨before, behind, rfl⟩ := append_of_mem htext
  obtain ⟨settled, rest, hl, hsettled, rfl⟩ := h.same (takenRows_accepted before)
  have hp' : .begun p ∈ settled ++ rest := hl ▸ mem_append_left _ hp
  refine ⟨_, behind.map .accepted, ?_, hsettled.insert hp', takenRows_accepted behind⟩
  rw [map_append, map_cons, ← append_assoc, hl]
  simp

end Owes

/-- The driver does not get to report its capabilities: the result set in progress cannot be
released, or the question fails. -/
def NoCapabilities (D : Driver σ δ ρ) (w : World σ δ ρ) : Prop :=
  ∀ w₁, releaseResults D w = .ok (w₁, true) → (dbDescribe D w₁).2 = none

/-- C strings with their lengths.  A row is handed over to an open connection whose result set
in progress can be released, or to a closed one with rows pending; an initialisation is made
while no row is pending, or has no effect. -/
def KeepsRows (D : Driver σ δ ρ) (w : World σ δ ρ) : DbCall → Prop
  | .bulkInsertInit q len _ => len = q.length ∧ (0 : UInt8) ∉ q ∧
      (w.con.bulkCnt = 0 ∨ w.con.state = .invalid ∨ NoCapabilities D w ∨
        bulkPacketSize < len + 1)
  | .bulkInsertNext q len => len = q.length ∧ (0 : UInt8) ∉ q ∧
      if w.con.state = .invalid then w.con.bulkCnt ≠ 0 else CanRelease D w
  | _ => True

/-- Where the rows are. -/
inductive Kept (con : DbConn ρ) (l : List BulkEvent) : Prop where
  /-- closed with rows pending: no `db_bulk_insert_done` returns 0 from here on -/
  | closed : con.state = .invalid → con.bulkCnt ≠ 0 → Kept con l
  | idle : con.bulkBuffer = none → con.bulkCnt = 0 → Owes l [] → Kept con l
  | batch {p : Bytes} {pending : List Bytes} : .begun p ∈ l → Batch p pending con →
      Owes l pending → Kept con l

section Steps

variable {w w' : World σ δ ρ} {l events : List BulkEvent} {c : DbCall} {r : DbRet}

/-- With nothing pending, every row has been inserted. -/
theorem Kept.settled (h : Kept w.con l) (hcnt : w.con.bulkCnt = 0) : Owes l [] := by
  cases h with
  | closed _ hne => exact absurd hcnt hne
  | idle _ _ howes => exact howes
  | batch _ hbatch howes =>
    rw [hbatch.cnt_eq_zero.mp hcnt] at howes
    exact howes

theorem Kept.same (h : Kept w.con l) (hevents : takenRows events = []) (hsame : SameBatch w w')
    (hstate : w.con.state = .invalid → w'.con.state = .invalid) : Kept w'.con (l ++ events) := by
  cases h with
  | closed hinv hne => exact .closed (hstate hinv) (by rw [hsame.cnt]; exact hne)
  | idle hbuf hcnt howes =>
    exact .idle (hsame.buffer.trans hbuf) (hsame.cnt.trans hcnt) (howes.same hevents)
  | batch hp hbatch howes =>
    exact .batch (mem_append_left _ hp) (hbatch.same hsame) (howes.same hevents)

theorem dbStep_invalid (h : dbStep D w c = .ok (w', r))
    (hinv : w.con.state = .invalid) : w'.con.state = .invalid :=
  ((dbStep_effects False False.elim h).invariant silent_effect silent_book
    (⟨hinv, rfl, rfl⟩ : Silent w.log w.drv w)).invalid

/-- What was accepted in a call is what its recording has. -/
theorem exists_recorded (h : dbStep D w c = .ok (w', r)) :
    ∃ v : World (σ × List Bytes) δ ρ, dbStep D.recording w.recorded c = .ok (v, r) ∧
      v.forget = w' ∧ acceptedIn D w c = v.drv.2 := by
  have hsim := dbStep_recording (D := D) (w := w.recorded) c
  rw [show w.recorded.forget = w from rfl, h] at hsim
  cases hrec : dbStep D.recording w.recorded c with
  | error f => rw [hrec] at hsim; cases hsim
  | ok a =>
    obtain ⟨v, r'⟩ := a
    rw [hrec] at hsim
    obtain ⟨hworld, hret⟩ := Prod.ext_iff.mp (Except.ok.inj hsim)
    cases (show r' = r from hret)
    refine ⟨v, rfl, hworld, ?_⟩
    rw [acceptedIn, hrec]

theorem dbStep_bulkNext
    (h : dbStep D w (.bulkInsertNext q len) = .ok (w', r)) :
    ∃ rc, r = .code rc ∧ dbBulkInsertNext D w q len = .ok (w', rc) :=
  code_of_bind (dbCall_of_dbStep h).2

theorem dbStep_bulkDone (h : dbStep D w .bulkInsertDone = .ok (w', r)) :
    ∃ rc, r = .code rc ∧ dbBulkInsertDone D w = .ok (w', rc) :=
  code_of_bind (dbCall_of_dbStep h).2

/-! ### One call -/

/-- `db_bulk_insert_init` forgets what was pending, or does nothing. -/
theorem Kept.init {texts : List Bytes} (h : Kept w.con l)
    (hkeeps : KeepsRows D w (.bulkInsertInit q len malloc))
    (hstep : dbStep D w (.bulkInsertInit q len malloc) = .ok (w', r)) :
    Kept w'.con (l ++ bulkEvents texts (.bulkInsertInit q len malloc) r) := by
  have hstay := dbStep_invalid hstep
  obtain ⟨rc, rfl, hcall⟩ := dbStep_bulkInit hstep
  obtain ⟨rfl, hnul, hpending⟩ := hkeeps
  have hevents : takenRows (bulkEvents texts (.bulkInsertInit q q.length malloc) (.code rc))
      = [] := by
    unfold bulkEvents
    dsimp only
    split <;> rfl
  rcases dbBulkInsertInit_ok hcall with ⟨-, rfl⟩ | hfail | ⟨w₁, hopen, hrel, hend⟩
  · exact h.same hevents (SameBulk.refl w').batch hstay
  · exact h.same hevents (releaseResults_sameBulk hfail).batch hstay
  have hsame := (releaseResults_sameBulk hrel).trans (dbDescribe_sameBulk (D := D))
  -- behind the guards, an initialisation that goes on is made with nothing pending
  have hempty (hcaps : (dbDescribe D w₁).2 ≠ none) (hlen : q.length + 1 ≤ bulkPacketSize) :
      w.con.bulkCnt = 0 := by
    rcases hpending with hcnt | hinv | hnone | hlong
    · exact hcnt
    · exact absurd hinv hopen
    · exact absurd (hnone w₁ hrel) hcaps
    · exact absurd hlen (Nat.not_le.mpr hlong)
  rcases hend with
    ⟨rfl, rfl | ⟨hcaps, hlen, rfl⟩⟩ | ⟨caps, fresh, buf, rfl, hcaps, hlen, hcopy, rfl⟩
  · exact h.same hevents hsame.batch hstay
  · have hcnt := hempty hcaps hlen
    exact .idle rfl (hsame.cnt.trans hcnt) ((h.settled hcnt).same hevents)
  · obtain ⟨hsize, htext, hptr⟩ := bulkStarted_buffer hnul hlen hcopy
    have hbegun :
        .begun q ∈ l ++ bulkEvents texts (.bulkInsertInit q q.length malloc) (.code 0) := by
      simp [bulkEvents]
    have hbatch : Batch q [] ((dbDescribe D w₁).1.bulkStarted caps buf q.length).con := by
      refine ⟨⟨buf, rfl, hsize, ?_⟩, ?_, rfl, hptr⟩
      · show buf.take (q.length % 2 ^ 32) = _
        rw [hptr, htext, insertText_nil]
      · rw [insertText_nil]
        exact hptr
    have hcnt := hempty (by rw [hcaps]; nofun) hlen
    exact .batch hbegun hbatch ((h.settled hcnt).same hevents)

theorem canRelease_recorded (h : CanRelease D w) : CanRelease D.recording w.recorded := by
  intro hrs drv rc data hfree
  obtain ⟨⟨drv', rc', data'⟩, hop, hanswer⟩ := Option.map_eq_some_iff.mp hfree
  cases hanswer
  exact h hrs drv' rc data hop

/-- On an open connection `db_bulk_insert_next` turns the row down and changes nothing, or takes
it; where it does not fit behind the others, these have been accepted first. -/
theorem Batch.next {v v' : World (σ × List Bytes) δ ρ} {p row : Bytes} {pending : List Bytes}
    {rc : ℤ} (h : Batch p pending v.con) (hopen : v.con.state ≠ .invalid)
    (hcan : CanRelease D.recording v) (hnul : (0 : UInt8) ∉ row)
    (hcall : dbBulkInsertNext D.recording v row row.length = .ok (v', rc)) :
    (rc ≠ 0 ∧ SameBatch v v') ∨ (rc = 0 ∧ Batch p (pending ++ [row]) v'.con) ∨
      (rc = 0 ∧ Batch p [row] v'.con ∧ insertText p pending ∈ v'.drv.2) := by
  rw [dbBulkInsertNext, if_neg hopen] at hcall
  obtain ⟨⟨v₁, released⟩, hrel, hcall⟩ := bind_eq_ok.mp hcall
  obtain ⟨hsame, hreleased⟩ := releaseResults_ends.of_ok hrel
  cases (show released = true from hreleased hcan)
  have h₁ : Batch p pending v₁.con := h.same hsame.batch
  obtain ⟨buf, hbuf, -, htext⟩ := h₁.buffer
  simp only [if_true, hbuf] at hcall
  by_cases hfull : v₁.con.bulkPtr + row.length + 1 + (if v₁.con.bulkCnt > 0 then 1 else 0)
      > v₁.con.bulkBuflen
  · rw [if_pos hfull] at hcall
    by_cases hcnt : v₁.con.bulkCnt = 0
    · rw [if_pos hcnt] at hcall
      cases hcall
      exact .inl ⟨by decide, hsame.batch⟩
    · rw [if_neg hcnt] at hcall
      obtain ⟨⟨v₂, rc₂⟩, hflush, hcall⟩ := bind_eq_ok.mp hcall
      have hflushed := dbBulkDoInsert_ends.of_ok hflush
      split at hcall
      · rename_i hrc
        cases hcall
        exact .inl ⟨by decide, hsame.batch.trans (hflushed.failed hrc)⟩
      · rename_i hrc
        cases (not_not.mp hrc)
        have hne : pending ≠ [] := fun hnil => hcnt (h₁.cnt_eq_zero.mpr hnil)
        obtain ⟨hzero, hbatch, hdrv⟩ := (h₁.flushed hne hflushed).append hnul hcall
        have haccepted := dbBulkDoInsert_accepted hflush hcnt
        rw [hbuf, Option.getD_some, htext] at haccepted
        exact .inr (.inr ⟨hzero, hbatch, hdrv ▸ haccepted⟩)
  · rw [if_neg hfull] at hcall
    obtain ⟨hzero, hbatch, -⟩ := h₁.append hnul hcall
    exact .inr (.inl ⟨hzero, hbatch⟩)

theorem Kept.next (h : Kept w.con l)
    (hkeeps : KeepsRows D w (.bulkInsertNext q len))
    (hstep : dbStep D w (.bulkInsertNext q len) = .ok (w', r)) :
    Kept w'.con
      (l ++ bulkEvents (acceptedIn D w (.bulkInsertNext q len)) (.bulkInsertNext q len) r) := by
  obtain ⟨v, hrec, rfl, haccepted⟩ := exists_recorded hstep
  obtain ⟨rfl, hnul, hguard⟩ := hkeeps
  obtain ⟨rc, rfl, hcall⟩ := dbStep_bulkNext hrec
  have hrefused (hrc : rc ≠ 0) :
      takenRows (bulkEvents v.drv.2 (.bulkInsertNext q q.length) (.code rc)) = [] := by
    rw [bulkEvents, if_neg hrc, append_nil]
    exact takenRows_accepted _
  have htaken : bulkEvents v.drv.2 (.bulkInsertNext q q.length) (.code 0)
      = v.drv.2.map .accepted ++ [.taken q] := by
    rw [bulkEvents, if_pos rfl, take_length]
  by_cases hinv : w.con.state = .invalid
  · -- the row is dropped, but the ones that are pending keep the connection from finishing
    rw [if_pos hinv] at hguard
    rw [dbBulkInsertNext, if_pos (show w.recorded.con.state = .invalid from hinv)] at hcall
    cases hcall
    exact .closed hinv hguard
  · rw [if_neg hinv] at hguard
    rw [haccepted]
    cases h with
    | closed hclosed => exact absurd hclosed hinv
    | idle hbuf hcnt howes =>
      -- without a buffer the row is turned down
      rw [dbBulkInsertNext, if_neg (show ¬w.recorded.con.state = .invalid from hinv)] at hcall
      obtain ⟨⟨v₁, released⟩, hrel, hcall⟩ := bind_eq_ok.mp hcall
      obtain ⟨hsame, hreleased⟩ := releaseResults_ends.of_ok hrel
      cases (show released = true from hreleased (canRelease_recorded hguard))
      have hbuf₁ : v₁.con.bulkBuffer = none := hsame.buffer.trans hbuf
      simp only [if_true, hbuf₁] at hcall
      cases hcall
      exact .idle hbuf₁ (hsame.cnt.trans hcnt) (howes.same (hrefused (by decide)))
    | batch hp hbatch howes =>
      have hbatch' : Batch _ _ w.recorded.con := hbatch
      rcases hbatch'.next hinv (canRelease_recorded hguard) hnul hcall with
        ⟨hrc, hsame⟩ | ⟨rfl, hnext⟩ | ⟨rfl, hnext, htext⟩
      · exact .batch (mem_append_left _ hp) (hbatch'.same hsame) (howes.same (hrefused hrc))
      · rw [htaken, ← append_assoc]
        refine .batch (mem_append_left _ (mem_append_left _ hp)) hnext ?_
        exact (howes.same (takenRows_accepted v.drv.2)).append [.taken q]
      · rw [htaken, ← append_assoc]
        refine .batch (mem_append_left _ (mem_append_left _ hp)) hnext ?_
        exact (howes.insert hp htext).append [.taken q]

/-- `db_bulk_insert_done` returns 0 only with every row inserted. -/
theorem Kept.done (h : Kept w.con l) (hstep : dbStep D w .bulkInsertDone = .ok (w', r)) :
    Kept w'.con (l ++ bulkEvents (acceptedIn D w .bulkInsertDone) .bulkInsertDone r) ∧
      (r = .code 0 →
        Owes (l ++ bulkEvents (acceptedIn D w .bulkInsertDone) .bulkInsertDone r) []) := by
  have hstay := dbStep_invalid hstep
  obtain ⟨v, hrec, rfl, haccepted⟩ := exists_recorded hstep
  obtain ⟨rc, rfl, hcall⟩ := dbStep_bulkDone hrec
  obtain ⟨⟨v₁, rc₁⟩, hflush, hcall⟩ := bind_eq_ok.mp hcall
  have hflushed := dbBulkDoInsert_ends.of_ok hflush
  have hevents : takenRows (v.drv.2.map .accepted) = [] := takenRows_accepted _
  rw [haccepted]
  show Kept _ (l ++ v.drv.2.map .accepted) ∧ (_ → Owes (l ++ v.drv.2.map .accepted) [])
  simp only at hcall hflushed
  split at hcall
  · -- the flush has failed: everything is as it was
    rename_i hrc
    cases hcall
    have hsame : SameBatch w v.forget := by
      obtain ⟨hcnt, hbuflen, hbuffer, hptr, hvalues⟩ := hflushed.failed hrc
      exact ⟨hcnt, hbuflen, hbuffer, hptr, hvalues⟩
    exact ⟨h.same hevents hsame hstay, fun hzero => by cases hzero⟩
  · rename_i hrc
    cases (not_not.mp hrc)
    cases hcall
    have howes : Owes (l ++ v₁.drv.2.map .accepted) [] := by
      by_cases hcnt : w.con.bulkCnt = 0
      · exact (h.settled hcnt).same hevents
      · have hinsert := dbBulkDoInsert_accepted hflush hcnt
        cases h with
        | closed hinv =>
          -- a query on a closed connection fails
          rw [dbBulkDoInsert, if_neg (show ¬w.recorded.con.bulkCnt = 0 from hcnt), dbQuery,
            if_pos (show w.recorded.con.state = .invalid from hinv)] at hflush
          cases hflush
        | idle _ hzero => exact absurd hzero hcnt
        | batch hp hbatch howes =>
          obtain ⟨buf, hbuf, -, htext⟩ := hbatch.buffer
          rw [show w.recorded.con = w.con from rfl, hbuf, Option.getD_some, htext] at hinsert
          exact howes.insert hp hinsert
    exact ⟨.idle rfl (hflushed.done rfl).1 howes, fun _ => howes⟩

theorem Kept.step (h : Kept w.con l) (hkeeps : KeepsRows D w c)
    (hstep : dbStep D w c = .ok (w', r)) :
    Kept w'.con (l ++ bulkEvents (acceptedIn D w c) c r) := by
  cases c with
  | bulkInsertInit q len malloc => exact h.init hkeeps hstep
  | bulkInsertNext q len => exact h.next hkeeps hstep
  | bulkInsertDone => exact (h.done hstep).1
  | _ =>
    have hsame := dbStep_sameBulk (by simp [DbCall.isBulk]) hstep
    exact h.same (show takenRows [] = [] from rfl) hsame.batch (dbStep_invalid hstep)

end Steps

/-! ### Runs -/

theorem kept_create {drv : σ} {w₀ : World σ δ ρ} (hcreate : dbConnectionCreate D drv = some w₀) :
    Kept w₀.con [] := by
  obtain rfl := dbConnectionCreate_some hcreate
  exact .idle rfl rfl ⟨[], [], rfl, .nil, rfl⟩

theorem kept_run {s₀ s : World σ δ ρ × List BulkEvent} (h₀ : Kept s₀.1.con s₀.2)
    (hrun : Reach (ledgerStep D) (fun s => KeepsRows D s.1) s₀ s) : Kept s.1.con s.2 := by
  refine hrun.invariant (P := fun s => Kept s.1.con s.2) h₀ ?_
  intro s s' c r hs hkeeps hstep
  obtain ⟨⟨w', r'⟩, hcall, hpure⟩ := bind_eq_ok.mp hstep
  cases hpure
  exact hs.step hkeeps hcall

/-- **No taken row is lost.**  In every run of the layer over any driver whose calls keep the
rows, when `db_bulk_insert_done` returns 0, every row for which `db_bulk_insert_next` has
returned 0 is, as often as it has been taken, one of the rows of an insert that the driver has
accepted since. -/
theorem taken_rows_are_inserted {drv : σ} {w₀ : World σ δ ρ}
    (hcreate : dbConnectionCreate D drv = some w₀) {s s' : World σ δ ρ × List BulkEvent}
    (hrun : Reach (ledgerStep D) (fun s => KeepsRows D s.1) (w₀, []) s)
    (hdone : ledgerStep D s .bulkInsertDone = .ok (s', .code 0)) : Owes s'.2 [] := by
  have hkept := kept_run (kept_create hcreate) hrun
  obtain ⟨⟨w', r⟩, hcall, hpure⟩ := bind_eq_ok.mp hdone
  cases hpure
  exact (hkept.done hcall).2 rfl

theorem ledgerStep_eq {w w' : World σ δ ρ} {c : DbCall} {r : DbRet} (l : List BulkEvent)
    (h : dbStep D w c = .ok (w', r)) :
    ledgerStep D (w, l) c = .ok ((w', l ++ bulkEvents (acceptedIn D w c) c r), r) := by
  rw [ledgerStep, h]
  rfl

theorem one_row_is_inserted :
    let D := mysqlDriver { dryRun := false, usePs := true, ignoredErrors := [] }
    ∃ w₀ s₁ s₂ s₃, dbConnectionCreate D (MysqlState.init fun _ => .empty) = some w₀ ∧
      ledgerStep D (w₀, []) (.bulkInsertInit [86] 1 (some fun _ => 0)) = .ok (s₁, .code 0) ∧
      ledgerStep D s₁ (.bulkInsertNext [49] 1) = .ok (s₂, .code 0) ∧
      ledgerStep D s₂ .bulkInsertDone = .ok (s₃, .code 0) ∧
      takenRows s₂.2 = [[49]] ∧ Owes s₃.2 [] := by
  intro D
  obtain ⟨w₀, w₁, hcreate, hinit, hw₁⟩ := mysql_bulk_started
  have hacc : Accepts D (fun m => m.server = fun _ => Answer.empty) :=
    (mysqlDriver_accepts { dryRun := false, usePs := true, ignoredErrors := [] } rfl D.describe).1
  have hnul : (0 : UInt8) ∉ [(49 : UInt8)] := by decide
  obtain ⟨w₂, groups, pending, hnext, hw₂, hne, -⟩ := hw₁.next hacc hnul (by decide)
  obtain ⟨w₃, -, hdone, -⟩ := hw₂.done hacc fun hnil => absurd hnil hne
  have hnext' : dbStep D w₁ (.bulkInsertNext [49] 1) = .ok (w₂, .code 0) := by
    rw [dbStep, hw₁.calm.allocated, dbCall]
    show (dbBulkInsertNext D w₁ [49] [(49 : UInt8)].length >>= _) = _
    rw [hnext]
    rfl
  have hdone' : dbStep D w₂ .bulkInsertDone = .ok (w₃, .code 0) := by
    rw [dbStep, hw₂.calm.allocated, dbCall, hdone]
    rfl
  have hbegin : KeepsRows D w₀ (.bulkInsertInit [86] 1 (some fun _ => 0)) := by
    refine ⟨rfl, by decide, .inl ?_⟩
    cases hcreate
    rfl
  have hrow : KeepsRows D w₁ (.bulkInsertNext [49] 1) := by
    refine ⟨rfl, hnul, ?_⟩
    rw [if_neg hw₁.calm.isOpen]
    exact hw₁.calm.canRelease
  have hstep₁ := ledgerStep_eq [] hinit
  have hstep₂ := ledgerStep_eq [.begun [86]] hnext'
  have hstep₃ := ledgerStep_eq ([.begun [86]] ++
    bulkEvents (acceptedIn D w₁ (.bulkInsertNext [49] 1)) (.bulkInsertNext [49] 1) (.code 0))
    hdone'
  refine ⟨w₀, _, _, _, hcreate, hstep₁, hstep₂, hstep₃, ?_, ?_⟩
  · rw [takenRows_append, bulkEvents, takenRows_append, takenRows_accepted]
    rfl
  · exact taken_rows_are_inserted hcreate
      (Reach.next (Reach.next Reach.refl hbegin hstep₁) hrow hstep₂) hstep₃

/-- A row given to a connection that was closed after the initialisation. -/
theorem row_on_closed_connection_is_lost :
    let D := mysqlDriver { dryRun := false, usePs := true, ignoredErrors := [] }
    ∃ w₀ s₁ s₂ s₃ s₄, dbConnectionCreate D (MysqlState.init fun _ => .empty) = some w₀ ∧
      ledgerStep D (w₀, []) (.bulkInsertInit [86] 1 (some fun _ => 0)) = .ok (s₁, .code 0) ∧
      ledgerStep D s₁ .connectionClose = .ok (s₂, .code 0) ∧
      ledgerStep D s₂ (.bulkInsertNext [49] 1) = .ok (s₃, .code 0) ∧
      ledgerStep D s₃ .bulkInsertDone = .ok (s₄, .code 0) ∧
      s₄.2 = [.begun [86], .taken [49]] ∧ ¬Owes s₄.2 [] := by
  intro D
  obtain ⟨w₀, w₁, hcreate, hinit, hw₁⟩ := mysql_bulk_started
  -- the connection is closed, with nothing pending
  obtain ⟨w, hrel, hcalm, -, hsame, -⟩ := hw₁.calm.releaseResults
  have hclose : dbStep D w₁ .connectionClose
      = .ok ({ w.record .disconnect with
        drv := (D.disconnect w.drv).1, con.state := .invalid }, .code 0) := by
    rw [dbStep, hw₁.calm.allocated, dbCall, dbConnectionClose, if_neg hw₁.calm.isOpen, hrel]
    rfl
  generalize hw₂ : ({ w.record .disconnect with
    drv := (D.disconnect w.drv).1, con.state := .invalid } : World _ _ _) = w₂ at hclose
  have hfreed : w₂.freed = false := by rw [← hw₂]; exact hcalm.allocated
  have hinv : w₂.con.state = .invalid := by rw [← hw₂]
  have hcnt : w₂.con.bulkCnt = 0 := by rw [← hw₂]; exact hsame.cnt.trans hw₁.cnt
  have hnext : dbStep D w₂ (.bulkInsertNext [49] 1) = .ok (w₂, .code 0) := by
    rw [dbStep, hfreed, dbCall, dbBulkInsertNext, if_pos hinv]
    rfl
  have hdone : dbStep D w₂ .bulkInsertDone = .ok ({ w₂ with con.bulkBuffer := none }, .code 0) := by
    rw [dbStep, if_neg (by rw [hfreed]; decide), dbCall, dbBulkInsertDone, dbBulkDoInsert,
      if_pos hcnt]
    rfl
  -- and no insert has reached the driver
  have hnext₀ : acceptedIn D w₂ (.bulkInsertNext [49] 1) = [] := by
    rw [acceptedIn, dbStep, show w₂.recorded.freed = false from hfreed, dbCall, dbBulkInsertNext,
      if_pos (show w₂.recorded.con.state = .invalid from hinv)]
    rfl
  have hdone₀ : acceptedIn D w₂ .bulkInsertDone = [] := by
    rw [acceptedIn, dbStep, show w₂.recorded.freed = false from hfreed, dbCall, dbBulkInsertDone,
      dbBulkDoInsert, if_pos (show w₂.recorded.con.bulkCnt = 0 from hcnt)]
    rfl
  have hstep₃ := ledgerStep_eq [.begun [86]] hnext
  have hstep₄ := ledgerStep_eq [.begun [86], .taken [49]] hdone
  rw [hnext₀] at hstep₃
  rw [hdone₀] at hstep₄
  refine ⟨w₀, _, _, _, _, hcreate, ledgerStep_eq [] hinit, ledgerStep_eq _ hclose, hstep₃, hstep₄,
    rfl, ?_⟩
  rintro ⟨settled, rest, hl, hsettled, hrest⟩
  cases hsettled with
  | nil =>
    cases hl
    cases hrest
  | insert _ _ =>
    have haccepted : BulkEvent.accepted _ ∈ [BulkEvent.begun [86], .taken [49]] :=
      hl ▸ mem_append_left _ (mem_append_right _ (mem_singleton_self _))
    simp at haccepted

end Sysbench
