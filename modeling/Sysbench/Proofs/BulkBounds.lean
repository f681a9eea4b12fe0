/-
What a bulk insert writes stays in its buffer, or does not.

`db_bulk_insert_next` asks whether a row fits, flushes the rows collected so far if it
does not, and copies the row without asking again.  The flush makes room up to the end
of the prefix and no more, so the question that decides is the one about the prefix
and the row alone.  `Careful` is the caller who asks it: under it the positions and the
buffer stay consistent in every state reached, whatever the driver answers, and a row
that is too long is turned down.  Without it, one such row behind a pending one is
copied past the end of the buffer.
-/
import Sysbench.Proofs.BulkInsert

namespace Sysbench

open List CMemory Runs

variable {σ δ ρ : Type} {D : Driver σ δ ρ} {w w' : World σ δ ρ} {q : Bytes} {w₀ : World σ δ ρ}

theorem dbStep_sameBulk {c : DbCall} {r : DbRet} (hc : ¬c.isBulk)
    (h : dbStep D w c = .ok (w', r)) : SameBulk w w' :=
  (dbStep_effects False False.elim h).invariant effect_sameBulk (book_sameBulk hc) (SameBulk.refl w)

/-! ### The invariant -/

/-- The positions and counts fit the buffer they are about. -/
structure InBounds (con : DbConn ρ) (buf : Bytes) : Prop where
  size : buf.length = con.bulkBuflen
  buflen : con.bulkBuflen = bulkPacketSize
  values : con.bulkValues + 1 ≤ bulkPacketSize
  ptr : con.bulkPtr + 1 ≤ bulkPacketSize
  empty : con.bulkCnt = 0 → con.bulkPtr = con.bulkValues
  /-- every row but the first brings a comma along -/
  cnt : con.bulkCnt ≤ con.bulkPtr + 1

def BulkOk (w : World σ δ ρ) : Prop := ∀ buf, w.con.bulkBuffer = some buf → InBounds w.con buf

/-- The buffer and the positions in it are the same; the commit counter may differ. -/
structure SameBatch (w w' : World σ δ ρ) : Prop where
  cnt : w'.con.bulkCnt = w.con.bulkCnt
  buflen : w'.con.bulkBuflen = w.con.bulkBuflen
  buffer : w'.con.bulkBuffer = w.con.bulkBuffer
  ptr : w'.con.bulkPtr = w.con.bulkPtr
  values : w'.con.bulkValues = w.con.bulkValues

theorem SameBulk.batch (h : SameBulk w w') : SameBatch w w' :=
  ⟨h.cnt, h.buflen, h.buffer, h.ptr, h.values⟩

theorem SameBatch.trans {w'' : World σ δ ρ} (h : SameBatch w w') (h' : SameBatch w' w'') :
    SameBatch w w'' :=
  ⟨h'.cnt.trans h.cnt, h'.buflen.trans h.buflen, h'.buffer.trans h.buffer, h'.ptr.trans h.ptr,
    h'.values.trans h.values⟩

theorem BulkOk.same (hw : BulkOk w) (h : SameBatch w w') : BulkOk w' := by
  intro buf hbuf
  obtain ⟨hsize, hbuflen, hvalues, hptr, hempty, hcnt⟩ := hw buf (h.buffer ▸ hbuf)
  refine ⟨?_, ?_, ?_, ?_, ?_, ?_⟩
  · rw [h.buflen]; exact hsize
  · rw [h.buflen]; exact hbuflen
  · rw [h.values]; exact hvalues
  · rw [h.ptr]; exact hptr
  · rw [h.cnt, h.ptr, h.values]; exact hempty
  · rw [h.cnt, h.ptr]; exact hcnt

/-! ### Flushing -/

/-- Everything but a write outside the buffer. -/
abbrev NoOverrun : Fault → Prop := (· ≠ .outOfBounds)

/-- A result set in progress can be released, if there is one. -/
def CanRelease (D : Driver σ δ ρ) (w : World σ δ ρ) : Prop :=
  w.con.state = .resultSet → ∀ drv rc data,
    D.freeResults w.drv w.statementRef w.con.rs.toRsData = some (drv, rc, data) → rc = 0

theorem releaseResults_ends :
    Ends NoOverrun (fun r => SameBulk w r.1 ∧ (CanRelease D w → r.2 = true))
      (releaseResults D w) := by
  unfold releaseResults
  split
  · rename_i hrs
    unfold dbFreeResultsInt
    split
    · exact nofun
    · rename_i drv rc data hfree
      refine ⟨⟨rfl, rfl, rfl, rfl, rfl, rfl, rfl⟩, fun hcan => ?_⟩
      exact decide_eq_true (hcan hrs drv rc data hfree)
  · exact ⟨SameBulk.refl w, fun _ => rfl⟩

theorem dbQuery_ends {text : Bytes} {len : ℕ} :
    Ends NoOverrun (fun r => SameBulk w r.1) (dbQuery D w text len) := by
  unfold dbQuery
  split
  · exact ⟨rfl, rfl, rfl, rfl, rfl, rfl, rfl⟩
  · refine releaseResults_ends.bind ?_
    rintro ⟨w₁, b⟩ ⟨hsame, -⟩
    cases b with
    | false => exact hsame.trans ⟨rfl, rfl, rfl, rfl, rfl, rfl, rfl⟩
    | true =>
      refine hsame.trans (SameBulk.trans ?_ (answered_sameBulk _ _))
      exact ⟨rfl, rfl, rfl, rfl, rfl, rfl, rfl⟩

theorem dbBulkCommit_ends {isLast : Bool} :
    Ends NoOverrun (fun r => SameBatch w r.1) (dbBulkCommit D w isLast) := by
  unfold dbBulkCommit
  split
  · simp only
    split
    · refine dbQuery_ends.bind ?_
      rintro ⟨w₁, rs⟩ hsame
      have hbatch : SameBatch w w₁ := { hsame.batch with }
      split
      · exact hbatch
      · exact hbatch.trans ⟨rfl, rfl, rfl, rfl, rfl⟩
    · exact ⟨rfl, rfl, rfl, rfl, rfl⟩
  · exact ⟨rfl, rfl, rfl, rfl, rfl⟩

/-- A flush that succeeds goes back to the prefix; one that does not changes nothing. -/
structure Flushed (w w' : World σ δ ρ) (rc : ℤ) : Prop where
  buffer : w'.con.bulkBuffer = w.con.bulkBuffer
  buflen : w'.con.bulkBuflen = w.con.bulkBuflen
  values : w'.con.bulkValues = w.con.bulkValues
  failed : rc ≠ 0 → SameBatch w w'
  done : rc = 0 → w'.con.bulkCnt = 0 ∧ (w.con.bulkCnt ≠ 0 → w'.con.bulkPtr = w'.con.bulkValues) ∧
    (w.con.bulkCnt = 0 → w' = w)

theorem dbBulkDoInsert_ends {isLast : Bool} :
    Ends NoOverrun (fun r => Flushed w r.1 r.2) (dbBulkDoInsert D w isLast) := by
  unfold dbBulkDoInsert
  split
  · rename_i hcnt
    exact ⟨rfl, rfl, rfl, fun hc => absurd rfl hc, fun _ => ⟨hcnt, absurd hcnt, fun _ => rfl⟩⟩
  · rename_i hcnt
    refine dbQuery_ends.bind ?_
    rintro ⟨w₁, rs⟩ hsame
    simp only
    split
    · exact ⟨hsame.buffer, hsame.buflen, hsame.values, fun _ => hsame.batch, nofun⟩
    · refine dbBulkCommit_ends.bind ?_
      rintro ⟨w₂, committed⟩ hbatch
      have hsame₂ := hsame.batch.trans hbatch
      cases committed with
      | false => exact ⟨hsame₂.buffer, hsame₂.buflen, hsame₂.values, fun _ => hsame₂, nofun⟩
      | true =>
        exact ⟨hsame₂.buffer, hsame₂.buflen, hsame₂.values, fun hc => absurd rfl hc,
          fun _ => ⟨rfl, fun _ => rfl, fun hc => absurd hc hcnt⟩⟩

theorem BulkOk.flushed {rc : ℤ} (hw : BulkOk w) (h : Flushed w w' rc) : BulkOk w' := by
  by_cases hrc : rc = 0
  · obtain ⟨hcnt', hptr, hsame⟩ := h.done hrc
    by_cases hcnt : w.con.bulkCnt = 0
    · rw [hsame hcnt]
      exact hw
    · intro buf hbuf
      obtain ⟨hsize, hbuflen, hvalues, -, -, -⟩ := hw buf (h.buffer ▸ hbuf)
      rw [← h.buflen] at hsize hbuflen
      rw [← h.values] at hvalues
      exact ⟨hsize, hbuflen, hvalues, hptr hcnt ▸ hvalues, fun _ => hptr hcnt, by omega⟩
  · exact hw.same (h.failed hrc)

/-! ### Appending a row -/

theorem dbBulkAppend_ends {buf : Bytes} (hbuf : w.con.bulkBuffer = some buf)
    (hw : InBounds w.con buf) (hnul : (0 : UInt8) ∉ q)
    (hfit : w.con.bulkPtr + q.length + 1 + (if w.con.bulkCnt > 0 then 1 else 0) ≤ bulkPacketSize) :
    Ends NoOverrun (fun r => BulkOk r.1 ∧ r.2 = 0) (dbBulkAppend w q q.length) := by
  have hroom : w.con.bulkPtr + ((if w.con.bulkCnt > 0 then 44 :: q else q) ++ [0]).length
      ≤ buf.length := by
    rw [hw.size, hw.buflen, length_append]
    split at hfit
    · rw [if_pos ‹_›]
      omega
    · rw [if_neg ‹_›]
      omega
  obtain ⟨buf', hstore, hlen⟩ := exists_writeAt hroom
  unfold dbBulkAppend
  simp only [hbuf, Option.getD_some, store_eq _ hnul, hstore]
  refine ⟨?_, rfl⟩
  have hbound : bulkPacketSize + 1 < 2 ^ 32 := by decide
  have hcnt := hw.cnt
  have hptr : w.con.bulkPtr + q.length + (if w.con.bulkCnt > 0 then 1 else 0) + 1
      ≤ bulkPacketSize := by omega
  intro buf'' hbuf''
  cases hbuf''
  refine ⟨hlen.trans hw.size, hw.buflen, hw.values, ?_, ?_, ?_⟩
  · show (w.con.bulkPtr + q.length + _) % 2 ^ 32 + 1 ≤ _
    rw [Nat.mod_eq_of_lt (by omega)]
    exact hptr
  · -- The count does not wrap around, so it is not zero now.
    rw [Nat.mod_eq_of_lt (by omega)]
    nofun
  · show (w.con.bulkCnt + 1) % 2 ^ 32 ≤ (w.con.bulkPtr + q.length + _) % 2 ^ 32 + 1
    split <;> omega

/-! ### The calls -/

/-- The row fits behind the prefix; or nothing is pending, the connection is open and any
result set in progress can be released. -/
def RowFits (D : Driver σ δ ρ) (w : World σ δ ρ) (q : Bytes) : Prop :=
  w.con.bulkValues + q.length + 1 ≤ w.con.bulkBuflen ∨
    (w.con.bulkCnt = 0 ∧ w.con.state ≠ .invalid ∧ CanRelease D w)

theorem dbBulkInsertNext_ends (hw : BulkOk w) (hnul : (0 : UInt8) ∉ q) (hrow : RowFits D w q) :
    Ends NoOverrun
      (fun r => BulkOk r.1 ∧ (w.con.bulkBuflen < w.con.bulkValues + q.length + 1 → r.2 ≠ 0))
      (dbBulkInsertNext D w q q.length) := by
  unfold dbBulkInsertNext
  split
  · rename_i hinv
    refine ⟨hw, fun hlong => ?_⟩
    rcases hrow with hfit | ⟨-, hopen, -⟩
    · exact absurd hlong (Nat.not_lt.mpr hfit)
    · exact absurd hinv hopen
  · refine releaseResults_ends.bind ?_
    rintro ⟨w₁, b⟩ ⟨hsame, hcan⟩
    have hw₁ := hw.same hsame.batch
    have hrow₁ : w₁.con.bulkValues + q.length + 1 ≤ w₁.con.bulkBuflen ∨
        (w₁.con.bulkCnt = 0 ∧ b = true) := by
      rw [hsame.values, hsame.buflen, hsame.cnt]
      exact hrow.imp_right fun ⟨hcnt, _, hc⟩ => ⟨hcnt, hcan hc⟩
    rw [← hsame.values, ← hsame.buflen]
    cases b with
    | false =>
      refine ⟨hw₁, fun hlong => ?_⟩
      exact absurd hlong (Nat.not_lt.mpr (hrow₁.resolve_right nofun))
    | true =>
      simp only [if_true]
      split
      · exact ⟨hw₁, fun _ => nofun⟩
      · rename_i buf hbuf
        have hb := hw₁ buf hbuf
        by_cases hfull : w₁.con.bulkPtr + q.length + 1 + (if w₁.con.bulkCnt > 0 then 1 else 0)
            > w₁.con.bulkBuflen
        · rw [if_pos hfull]
          split
          · exact ⟨hw₁, fun _ => nofun⟩
          · rename_i hcnt
            have hfit := hrow₁.resolve_right fun hc => hcnt hc.1
            refine dbBulkDoInsert_ends.bind ?_
            rintro ⟨w₂, rc⟩ hflush
            have hw₂ := hw₁.flushed hflush
            by_cases hrc : rc = 0
            · obtain ⟨hcnt₂, hptr₂, -⟩ := hflush.done hrc
              have hbuf₂ := hflush.buffer.trans hbuf
              simp only [hrc, ne_eq, not_true_eq_false, if_false]
              refine (dbBulkAppend_ends hbuf₂ (hw₂ buf hbuf₂) hnul ?_).mono ?_
              · rw [hptr₂ hcnt, hcnt₂, hflush.values, ← hb.buflen]
                exact hfit
              · exact fun r hr => ⟨hr.1, fun hlong => absurd hlong (Nat.not_lt.mpr hfit)⟩
            · simp only [ne_eq, hrc, not_false_eq_true, if_true]
              exact ⟨hw₂, fun _ => nofun⟩
        · rw [if_neg hfull]
          have hroom := Nat.le_of_not_lt hfull
          refine (dbBulkAppend_ends hbuf hb hnul (hb.buflen ▸ hroom)).mono fun r hr => ⟨hr.1, ?_⟩
          intro hlong
          -- Too long with a row pending was ruled out; too long without one did not pass here.
          rcases hrow₁ with hfit | ⟨hcnt, -⟩
          · exact absurd hlong (Nat.not_lt.mpr hfit)
          · have hptr : w₁.con.bulkPtr = w₁.con.bulkValues := hb.empty hcnt
            omega

theorem dbBulkInsertDone_ends (hw : BulkOk w) :
    Ends NoOverrun (fun r => BulkOk r.1) (dbBulkInsertDone D w) := by
  refine dbBulkDoInsert_ends.bind ?_
  rintro ⟨w₁, rc⟩ hflush
  simp only
  split
  · exact hw.flushed hflush
  · exact nofun

theorem dbDescribe_sameBulk : SameBulk w (dbDescribe D w).1 := by
  unfold dbDescribe
  split
  · exact SameBulk.refl w
  · exact ⟨rfl, rfl, rfl, rfl, rfl, rfl, rfl⟩

theorem dbBulkInsertInit_ends {malloc : Option (ℕ → UInt8)} (hw : BulkOk w) :
    Ends NoOverrun (fun r => BulkOk r.1) (dbBulkInsertInit D w q q.length malloc) := by
  unfold dbBulkInsertInit
  split
  · exact hw
  · refine releaseResults_ends.bind ?_
    rintro ⟨w₁, b⟩ ⟨hsame, -⟩
    cases b with
    | false => exact hw.same hsame.batch
    | true =>
      have hw₁ : BulkOk (dbDescribe D w₁).1 := hw.same (hsame.trans dbDescribe_sameBulk).batch
      simp only [if_true]
      split
      · exact hw₁
      · split
        · exact hw₁
        · rename_i hlen
          split
          · exact nofun
          · rename_i fresh
            have hmem : ((range bulkPacketSize).map fresh).length = bulkPacketSize := by
              rw [length_map, length_range]
            have hroom : 0 + q.length + 1 ≤ ((range bulkPacketSize).map fresh).length := by
              omega
            obtain ⟨buf, hcopy, hbuf⟩ := exists_strcpy hroom
            have hptr : q.length % 2 ^ 32 = q.length :=
              Nat.mod_eq_of_lt (lt_of_lt_of_le (Nat.le_of_not_lt hlen) (by decide))
            rw [hcopy]
            intro buf' hbuf'
            cases hbuf'
            have hfits : q.length % 2 ^ 32 + 1 ≤ bulkPacketSize := by
              rw [hptr]
              exact Nat.le_of_not_lt hlen
            exact ⟨hbuf.trans hmem, rfl, hfits, hfits, fun _ => rfl, Nat.zero_le _⟩

/-! ### Runs -/

/-- A caller who passes C strings with their lengths, and rows that fit. -/
def Careful (D : Driver σ δ ρ) (w : World σ δ ρ) : DbCall → Prop
  | .bulkInsertInit q len _ => len = q.length ∧ (0 : UInt8) ∉ q
  | .bulkInsertNext q len => len = q.length ∧ (0 : UInt8) ∉ q ∧ RowFits D w q
  | _ => True

/-- The call hands over a row that no packet has room for. -/
def TooLong (w : World σ δ ρ) : DbCall → Prop
  | .bulkInsertNext q _ => w.con.bulkBuflen < w.con.bulkValues + q.length + 1
  | _ => False

theorem bulk_step {c : DbCall} (hw : BulkOk w) (hc : c.isBulk) (hcare : Careful D w c) :
    Ends NoOverrun (fun r => BulkOk r.1 ∧ (TooLong w c → r.2 ≠ .code 0)) (dbStep D w c) := by
  unfold dbStep
  split
  · exact nofun
  · cases c with
    | bulkInsertInit q len malloc =>
      obtain ⟨rfl, -⟩ := hcare
      exact (dbBulkInsertInit_ends hw).bind fun r hr => ⟨hr, nofun⟩
    | bulkInsertNext q len =>
      obtain ⟨rfl, hnul, hrow⟩ := hcare
      refine (dbBulkInsertNext_ends hw hnul hrow).bind fun r hr => ⟨hr.1, fun hlong heq => ?_⟩
      exact hr.2 hlong (DbRet.code.inj heq)
    | bulkInsertDone => exact (dbBulkInsertDone_ends hw).bind fun r hr => ⟨hr, nofun⟩
    | _ => cases hc

theorem bulkOk_run {drv : σ} (hcreate : dbConnectionCreate D drv = some w₀)
    (hrun : Reach (dbStep D) (Careful D) w₀ w) : BulkOk w := by
  refine hrun.invariant ?_ ?_
  · obtain rfl := dbConnectionCreate_some hcreate
    exact nofun
  · intro w w' c r hw hcare h
    by_cases hc : c.isBulk
    · exact ((bulk_step hw hc hcare).of_ok h).1
    · exact hw.same (dbStep_sameBulk hc h).batch

/-- **Careful callers stay in the buffer.**  In every state that careful calls reach,
`bulk_buflen` is the size of the buffer, a careful bulk call writes nothing outside it, and
a row that no packet has room for is turned down. -/
theorem careful_bulk_calls_stay_in_buffer {drv : σ} {w₀ : World σ δ ρ}
    (hcreate : dbConnectionCreate D drv = some w₀) (hrun : Reach (dbStep D) (Careful D) w₀ w) :
    (∀ buf, w.con.bulkBuffer = some buf → buf.length = w.con.bulkBuflen) ∧
      ∀ c, c.isBulk → Careful D w c →
        dbStep D w c ≠ .error .outOfBounds ∧
          (TooLong w c → ∀ w', dbStep D w c ≠ .ok (w', .code 0)) := by
  have hw := bulkOk_run hcreate hrun
  refine ⟨fun buf hbuf => (hw buf hbuf).size, fun c hc hcare => ⟨?_, ?_⟩⟩
  · exact (bulk_step hw hc hcare).not_error (not_not.mpr rfl)
  · intro hlong w' h
    exact ((bulk_step hw hc hcare).of_ok h).2 hlong rfl

theorem Calm.canRelease {I : σ → Prop} (hw : Calm D I w) : CanRelease D w := by
  intro hrs drv rc data hfree
  obtain ⟨drv', data', hfree', -⟩ := hw.release hrs
  cases hfree'.symm.trans hfree
  rfl

/-- A connection to a server that accepts everything, right after `db_bulk_insert_init`. -/
theorem mysql_bulk_started :
    let D := mysqlDriver { dryRun := false, usePs := true, ignoredErrors := [] }
    ∃ w₀ w₁, dbConnectionCreate D (MysqlState.init fun _ => .empty) = some w₀ ∧
      dbStep D w₀ (.bulkInsertInit [86] 1 (some fun _ => 0)) = .ok (w₁, .code 0) ∧
      Filling D (fun m => m.server = fun _ => Answer.empty) [86] false w₀.queries [] [] w₁ := by
  intro D
  obtain ⟨w, hw, hI, hready, hstmt, hcaps, hfreed⟩ :
      ∃ w, dbConnectionCreate D (MysqlState.init fun _ => .empty) = some w ∧
        (w.drv.server = fun _ => Answer.empty) ∧ w.con.state = .ready ∧
        w.statementRef ≠ .dangling ∧ (dbDescribe D w).2 = some { needsCommit := false } ∧
        w.freed = false :=
    ⟨_, rfl, rfl, rfl, nofun, rfl, rfl⟩
  obtain ⟨w₁, hinit⟩ := bulkInsertInit_accepts [86] (fun _ => 0) hfreed hready hcaps (by decide)
  exact ⟨w, w₁, hw, hinit, Filling.init hI hready (fun _ => hstmt) (by decide) hcaps hinit⟩

theorem long_first_row_is_turned_down :
    let D := mysqlDriver { dryRun := false, usePs := true, ignoredErrors := [] }
    let c := DbCall.bulkInsertNext (List.replicate bulkPacketSize 49) bulkPacketSize
    ∃ w₀ w₁, dbConnectionCreate D (MysqlState.init fun _ => .empty) = some w₀ ∧
      dbStep D w₀ (.bulkInsertInit [86] 1 (some fun _ => 0)) = .ok (w₁, .code 0) ∧
      TooLong w₁ c ∧ dbStep D w₁ c ≠ .error .outOfBounds ∧
      ∀ w', dbStep D w₁ c ≠ .ok (w', .code 0) := by
  intro D c
  obtain ⟨w₀, w₁, hcreate, hinit, hw₁⟩ := mysql_bulk_started
  have hprefix : Careful D w₀ (.bulkInsertInit [86] 1 (some fun _ => 0)) := ⟨rfl, by decide⟩
  have hrun : Reach (dbStep D) (Careful D) w₀ w₁ := Reach.next Reach.refl hprefix hinit
  have hcare : Careful D w₁ c := by
    refine ⟨length_replicate.symm, ?_, .inr ⟨hw₁.cnt, hw₁.calm.isOpen, hw₁.calm.canRelease⟩⟩
    exact fun hc => absurd (eq_of_mem_replicate hc) (by decide)
  have hlong : TooLong w₁ c := by
    show w₁.con.bulkBuflen
      < w₁.con.bulkValues + (List.replicate bulkPacketSize (49 : UInt8)).length + 1
    rw [hw₁.buflen, hw₁.values, length_replicate]
    omega
  have hsafe := (careful_bulk_calls_stay_in_buffer hcreate hrun).2 c rfl hcare
  exact ⟨w₀, w₁, hcreate, hinit, hlong, hsafe.1, hsafe.2 hlong⟩

theorem long_second_row_overruns_buffer :
    let D := mysqlDriver { dryRun := false, usePs := true, ignoredErrors := [] }
    ∃ w₀ w₁ w₂, dbConnectionCreate D (MysqlState.init fun _ => .empty) = some w₀ ∧
      dbStep D w₀ (.bulkInsertInit [86] 1 (some fun _ => 0)) = .ok (w₁, .code 0) ∧
      dbStep D w₁ (.bulkInsertNext [49] 1) = .ok (w₂, .code 0) ∧
      dbStep D w₂ (.bulkInsertNext (List.replicate bulkPacketSize 49) bulkPacketSize)
        = .error .outOfBounds := by
  intro D
  obtain ⟨w₀, w₁, hcreate, hinit, hw₁⟩ := mysql_bulk_started
  have hacc : Accepts D (fun m => m.server = fun _ => Answer.empty) :=
    (mysqlDriver_accepts { dryRun := false, usePs := true, ignoredErrors := [] } rfl D.describe).1
  have hrow : (0 : UInt8) ∉ [(49 : UInt8)] := by decide
  have hlong : (0 : UInt8) ∉ List.replicate bulkPacketSize (49 : UInt8) :=
    fun hc => absurd (eq_of_mem_replicate hc) (by decide)
  obtain ⟨w₂, groups, pending, hnext, hw₂, hne, -⟩ := hw₁.next hacc hrow (by decide)
  refine ⟨w₀, w₁, w₂, hcreate, hinit, ?_, ?_⟩
  · rw [dbStep, hw₁.calm.allocated, dbCall]
    show (dbBulkInsertNext D w₁ [49] [(49 : UInt8)].length >>= _) = _
    rw [hnext]
    rfl
  · have hover := hw₂.overrun hacc hne hlong
      (by rw [length_replicate, length_singleton]; omega)
    rw [length_replicate] at hover
    rw [dbStep, hw₂.calm.allocated, dbCall, hover]
    rfl

end Sysbench
