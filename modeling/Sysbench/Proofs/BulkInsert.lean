/-
The rows of a bulk insert arrive, each once and in order.

The buffer holds the prefix and the rows collected since the last packet, joined by
commas; `bulk_ptr` stands at the end of that text and `bulk_cnt` counts its rows.
`Filling` says so, together with what has been submitted: one packet after another,
each with its rows, whose concatenation with the pending ones is every row so far.
A row that fits is appended behind a comma; one that does not is preceded by a flush,
which moves `bulk_ptr` back behind the prefix and leaves nothing pending.
-/
import Mathlib.Data.List.Induction
import Sysbench.Model.MysqlDriver
import Sysbench.Proofs.DbEffects

namespace Sysbench

open List CMemory Runs

variable {σ δ ρ : Type} {D : Driver σ δ ρ} {I : σ → Prop} {w w' w₀ : World σ δ ρ}

/-! ### What queries leave alone -/

/-- The bulk fields of two connections are the same. -/
structure SameBulk (w w' : World σ δ ρ) : Prop where
  cnt : w'.con.bulkCnt = w.con.bulkCnt
  buflen : w'.con.bulkBuflen = w.con.bulkBuflen
  buffer : w'.con.bulkBuffer = w.con.bulkBuffer
  ptr : w'.con.bulkPtr = w.con.bulkPtr
  values : w'.con.bulkValues = w.con.bulkValues
  commitCnt : w'.con.bulkCommitCnt = w.con.bulkCommitCnt
  commitMax : w'.con.bulkCommitMax = w.con.bulkCommitMax

theorem SameBulk.refl (w : World σ δ ρ) : SameBulk w w := ⟨rfl, rfl, rfl, rfl, rfl, rfl, rfl⟩

theorem SameBulk.trans {w'' : World σ δ ρ} (h : SameBulk w w') (h' : SameBulk w' w'') :
    SameBulk w w'' :=
  ⟨h'.cnt.trans h.cnt, h'.buflen.trans h.buflen, h'.buffer.trans h.buffer, h'.ptr.trans h.ptr,
    h'.values.trans h.values, h'.commitCnt.trans h.commitCnt, h'.commitMax.trans h.commitMax⟩

theorem answered_sameBulk (w : World σ δ ρ) (a : σ × DbError × RsData ρ) :
    SameBulk w (w.answered a).1 := by
  unfold World.answered
  split
  split
  · split <;> exact ⟨rfl, rfl, rfl, rfl, rfl, rfl, rfl⟩
  · exact ⟨rfl, rfl, rfl, rfl, rfl, rfl, rfl⟩

theorem releaseResults_sameBulk {b : Bool} (h : releaseResults D w = .ok (w', b)) :
    SameBulk w w' := by
  obtain ⟨-, rfl⟩ | ⟨-, drv, rc, data, rfl, -⟩ := releaseResults_cases h
  · exact SameBulk.refl w'
  · exact ⟨rfl, rfl, rfl, rfl, rfl, rfl, rfl⟩

variable {len : ℕ}

theorem effect_sameBulk (hw : SameBulk w₀ w) (h : Effect D False w w') :
    SameBulk w₀ w' := by
  have step : SameBulk w w' := by
    cases h with
    | execute | stmtNextResult | query | nextResult =>
      refine SameBulk.trans ?_ (answered_sameBulk _ _)
      exact ⟨rfl, rfl, rfl, rfl, rfl, rfl, rfl⟩
    | _ => exact ⟨rfl, rfl, rfl, rfl, rfl, rfl, rfl⟩
  exact hw.trans step

theorem book_sameBulk {bulk : Prop} (hno : ¬bulk) (hw : SameBulk w₀ w)
    (h : Bookkeeping bulk w w') : SameBulk w₀ w' := by
  cases h with
  | bulk hbulk => exact absurd hbulk hno
  | describe | dealloc => exact hw.trans ⟨rfl, rfl, rfl, rfl, rfl, rfl, rfl⟩

theorem dbQuery_sameBulk {text : Bytes} {r : Bool} (h : dbQuery D w text len = .ok (w', r)) :
    SameBulk w w' :=
  (dbQuery_effects False.elim h).1.invariant effect_sameBulk (book_sameBulk not_false)
    (SameBulk.refl w)

/-! ### A driver that accepts every query -/

/-- In the states `I` the driver takes any query, and a result set it produced for one
can be released again. -/
structure Accepts (D : Driver σ δ ρ) (I : σ → Prop) : Prop where
  query : ∀ {drv : σ} (text : Bytes) (len : ℕ) (data : RsData ρ), I drv →
    (D.query drv text len data).2.1 = .none ∧ I (D.query drv text len data).1
  release : ∀ {drv : σ} (text : Bytes) (len : ℕ) (data : RsData ρ) (stmt : StmtRef δ), I drv →
    stmt ≠ .dangling → (D.query drv text len data).2.2.counter = .read →
    ∃ drv' data', D.freeResults (D.query drv text len data).1 stmt (D.query drv text len data).2.2
      = some (drv', 0, data') ∧ I drv'

/-- In some state of `I` the driver answers some query with a result set. -/
def ReturnsRows (D : Driver σ δ ρ) (I : σ → Prop) : Prop :=
  ∃ drv text len data, I drv ∧ (D.query drv text len data).2.2.counter = .read

/-- The connection is open, and a result set in progress can be released.  What `rs.statement`
points to only matters if there can be one. -/
structure Calm (D : Driver σ δ ρ) (I : σ → Prop) (w : World σ δ ρ) : Prop where
  drv : I w.drv
  allocated : w.freed = false
  statement : ReturnsRows D I → w.statementRef ≠ .dangling
  isOpen : w.con.state ≠ .invalid
  release : w.con.state = .resultSet → ∃ drv' data',
    D.freeResults w.drv w.statementRef w.con.rs.toRsData = some (drv', 0, data') ∧ I drv'

/-- The queries submitted so far, each with the memory it was read from. -/
def World.queries (w : World σ δ ρ) : List (Bytes × ℕ) :=
  w.log.filterMap fun op =>
    match op with
    | .query text len => some (text, len)
    | _ => none

theorem Calm.releaseResults (hw : Calm D I w) :
    ∃ w', releaseResults D w = .ok (w', true) ∧ Calm D I w' ∧ w'.con.state = .ready ∧
      SameBulk w w' ∧ w'.queries = w.queries := by
  by_cases hrs : w.con.state = .resultSet
  · obtain ⟨drv, data, hfree, hI⟩ := hw.release hrs
    have heq : Sysbench.releaseResults D w = .ok (w.freedResults drv data, true) := by
      rw [Sysbench.releaseResults, if_pos hrs, dbFreeResultsInt, hfree]
      rfl
    refine ⟨_, heq, ⟨hI, hw.allocated, fun _ => nofun, nofun, nofun⟩, rfl,
      releaseResults_sameBulk heq, ?_⟩
    show (w.log ++ [_]).filterMap _ = _
    rw [filterMap_append]
    exact append_nil _
  · have hready : w.con.state = .ready := by
      have hopen := hw.isOpen
      cases hst : w.con.state <;> simp_all
    have heq : Sysbench.releaseResults D w = .ok (w, true) := by
      rw [Sysbench.releaseResults, if_neg hrs]
      rfl
    exact ⟨w, heq, hw, hready, SameBulk.refl w, rfl⟩

theorem answered_none (w : World σ δ ρ) (drv : σ) (data : RsData ρ) :
    (w.answered (drv, .none, data)).1 =
      (({ w with drv := drv, con.error := .none, con.rs.toRsData := data }
          : World σ δ ρ).sbCounterInc data.counter).setState
        (if data.counter = .read then .resultSet else .ready) := by
  unfold World.answered
  by_cases hread : data.counter = .read
  · simp only [if_true, if_pos hread]
  · simp only [if_true, if_neg hread]

theorem Calm.query (hacc : Accepts D I) (hw : Calm D I w) (text : Bytes) (len : ℕ) :
    ∃ w' r, dbQuery D w text len = .ok (w', r) ∧ w'.con.error = .none ∧ Calm D I w' ∧
      SameBulk w w' ∧ w'.queries = w.queries ++ [(text, len)] := by
  obtain ⟨w₁, hrel, hw₁, hready, hsame, hq⟩ := hw.releaseResults
  obtain ⟨hnone, hI⟩ := hacc.query text len w₁.con.rs.toRsData hw₁.drv
  have hrelease (hread : (D.query w₁.drv text len w₁.con.rs.toRsData).2.2.counter = .read) :=
    hacc.release text len w₁.con.rs.toRsData w₁.statementRef hw₁.drv
      (hw₁.statement ⟨_, _, _, _, hw₁.drv, hread⟩) hread
  generalize ha : D.query w₁.drv text len w₁.con.rs.toRsData = a at hnone hI hrelease
  obtain ⟨drv, e, data⟩ := a
  have heq : dbQuery D w text len
      = .ok ((w₁.record (.query text len)).answered (drv, e, data)) := by
    rw [dbQuery, if_neg hw.isOpen, hrel]
    show Except.ok ((w₁.record (.query text len)).answered
      (D.query w₁.drv text len w₁.con.rs.toRsData)) = _
    rw [ha]
  have hlog : (w₁.record (.query text len)).queries = w.queries ++ [(text, len)] := by
    show (w₁.log ++ [_]).filterMap _ = _
    rw [filterMap_append, ← hq]
    rfl
  cases (show e = .none from hnone)
  have hans := answered_none (w₁.record (.query text len)) drv data
  generalize (w₁.record (.query text len)).answered (drv, .none, data) = p at heq hans
  obtain ⟨w', r⟩ := p
  subst hans
  refine ⟨_, r, heq, rfl, ⟨hI, hw₁.allocated, hw₁.statement, ?_, ?_⟩, dbQuery_sameBulk heq, hlog⟩
  · by_cases hread : data.counter = .read
    · simp [World.setState, hread]
    · simp [World.setState, hread]
  · intro hstate
    refine hrelease ?_
    by_contra hread
    simp [World.setState, hread] at hstate

/-! ### Packets -/

/-- The text of an insert: the prefix and the rows, separated by commas. -/
def insertText (p : Bytes) (rows : List Bytes) : Bytes := p ++ List.intercalate [44] rows

/-- The texts submitted for a group of rows, with a `COMMIT` behind it or not. -/
def packet (p : Bytes) (group : List Bytes × Bool) : List Bytes :=
  insertText p group.1 :: if group.2 then [commitText.take 6] else []

theorem intercalate_concat {α : Type} (sep x : List α) {rows : List (List α)} (hne : rows ≠ []) :
    intercalate sep (rows ++ [x]) = intercalate sep rows ++ (sep ++ x) := by
  induction rows with
  | nil => exact absurd rfl hne
  | cons r rest ih =>
    cases rest with
    | nil => simp [intercalate]
    | cons r' rest =>
      have hrest := ih (by simp)
      simp only [intercalate, cons_append, intersperse_cons_cons,
        flatten_cons] at hrest ⊢
      rw [hrest]
      simp only [append_assoc]

/-- The text grows by the row, behind a comma unless it is the first. -/
theorem insertText_concat (p row : Bytes) (pending : List Bytes) :
    insertText p (pending ++ [row])
      = insertText p pending ++ if pending = [] then row else 44 :: row := by
  unfold insertText
  by_cases hne : pending = []
  · subst hne
    simp [intercalate]
  · rw [intercalate_concat _ _ hne, if_neg hne, append_assoc]
    rfl

/-- What has been submitted since `start`: the packets of `groups`, each a C string that
fits the buffer with its terminator. -/
def Sent (p : Bytes) (start : List (Bytes × ℕ)) (groups : List (List Bytes × Bool))
    (queries : List (Bytes × ℕ)) : Prop :=
  ∃ new, queries = start ++ new ∧
    new.map (fun q => q.1.take q.2) = groups.flatMap (packet p) ∧
    ∀ q ∈ new, cstr q.1 = q.1.take q.2 ∧ q.2 + 1 ≤ bulkPacketSize

theorem Sent.concat {p : Bytes} {start queries new : List (Bytes × ℕ)}
    {groups : List (List Bytes × Bool)} {group : List Bytes × Bool}
    (h : Sent p start groups queries)
    (htexts : new.map (fun q => q.1.take q.2) = packet p group)
    (hfit : ∀ q ∈ new, cstr q.1 = q.1.take q.2 ∧ q.2 + 1 ≤ bulkPacketSize) :
    Sent p start (groups ++ [group]) (queries ++ new) := by
  obtain ⟨old, rfl, hold, hall⟩ := h
  refine ⟨old ++ new, by rw [append_assoc], ?_, ?_⟩
  · rw [map_append, hold, htexts]
    simp
  · intro q hq
    rcases mem_append.mp hq with hq | hq
    · exact hall q hq
    · exact hfit q hq

/-! ### The buffer between two calls -/

/-- The state between two rows: `groups` are submitted, `pending` is in the buffer. -/
structure Filling (D : Driver σ δ ρ) (I : σ → Prop) (p : Bytes) (needsCommit : Bool)
    (start : List (Bytes × ℕ)) (groups : List (List Bytes × Bool)) (pending : List Bytes)
    (w : World σ δ ρ) : Prop where
  calm : Calm D I w
  buffer : ∃ buf, w.con.bulkBuffer = some buf ∧ buf.length = bulkPacketSize ∧
    buf.take (insertText p pending).length = insertText p pending ∧
    (pending ≠ [] → buf.take ((insertText p pending).length + 1) = insertText p pending ++ [0])
  ptr : w.con.bulkPtr = (insertText p pending).length
  buflen : w.con.bulkBuflen = bulkPacketSize
  cnt : w.con.bulkCnt = pending.length
  values : w.con.bulkValues = p.length
  commitMax : w.con.bulkCommitMax = if needsCommit then rowsBeforeCommit else 0
  commitCnt : w.con.bulkCommitCnt < rowsBeforeCommit
  fits : (insertText p pending).length + 1 ≤ bulkPacketSize
  noNul : (0 : UInt8) ∉ insertText p pending
  sent : Sent p start groups w.queries
  nonempty : ∀ g ∈ groups, g.1 ≠ []
  uncommitted : needsCommit = false → ∀ g ∈ groups, g.2 = false

variable {p : Bytes} {needsCommit : Bool} {start : List (Bytes × ℕ)}
  {groups : List (List Bytes × Bool)} {pending : List Bytes}

theorem insertText_nil (p : Bytes) : insertText p [] = p := by simp [insertText]

variable {buf : Bytes}

theorem take_prefix_of_insertText
    (h : buf.take (insertText p pending).length = insertText p pending) :
    buf.take p.length = p := by
  have hcut := congrArg (take p.length) h
  rw [take_take, insertText, length_append, Nat.min_eq_left (Nat.le_add_right _ _),
    take_left] at hcut
  exact hcut

/-- What the commit that may follow an insert leaves, where `b` says whether there was one. -/
structure Committed (needsCommit isLast b : Bool) (w w' : World σ δ ρ) : Prop where
  buffer : w'.con.bulkBuffer = w.con.bulkBuffer
  buflen : w'.con.bulkBuflen = w.con.bulkBuflen
  values : w'.con.bulkValues = w.con.bulkValues
  commitMax : w'.con.bulkCommitMax = w.con.bulkCommitMax
  commitCnt : w'.con.bulkCommitCnt < rowsBeforeCommit
  queries : w'.queries = w.queries ++ (if b then [(commitText, 6)] else [])
  notNeeded : needsCommit = false → b = false
  last : needsCommit = true → isLast = true → b = true

theorem Calm.commit (hacc : Accepts D I) (hw : Calm D I w)
    (hmax : w.con.bulkCommitMax = if needsCommit then rowsBeforeCommit else 0)
    (hcnt : w.con.bulkCommitCnt < rowsBeforeCommit) (isLast : Bool) :
    ∃ w' b, dbBulkCommit D w isLast = .ok (w', true) ∧ Calm D I w' ∧
      Committed needsCommit isLast b w w' := by
  unfold dbBulkCommit
  cases needsCommit with
  | false =>
    refine ⟨w, false, ?_, hw, rfl, rfl, rfl, rfl, hcnt, by simp, fun _ => rfl, nofun⟩
    rw [hmax]
    rfl
  | true =>
    have hne : w.con.bulkCommitMax ≠ 0 := by
      rw [hmax]
      decide
    rw [if_pos hne]
    generalize hw' : ({ w with
      con.bulkCommitCnt := (w.con.bulkCommitCnt + w.con.bulkCnt) % 2 ^ 32 } : World σ δ ρ) = w₁
    have hcalm : Calm D I w₁ := by
      subst hw'
      exact ⟨hw.drv, hw.allocated, hw.statement, hw.isOpen, hw.release⟩
    by_cases hdue : isLast ∨ w₁.con.bulkCommitCnt ≥ w₁.con.bulkCommitMax
    · obtain ⟨w₂, r, hq, herr, hw₂, hsame, hqueries⟩ := hcalm.query hacc commitText 6
      refine ⟨{ w₂ with con.bulkCommitCnt := 0 }, true, ?_,
        ⟨hw₂.drv, hw₂.allocated, hw₂.statement, hw₂.isOpen, hw₂.release⟩, ?_⟩
      · rw [if_pos hdue, hq]
        show (if !r ∧ w₂.con.error ≠ .none then _ else _) = _
        rw [if_neg (by simp [herr])]
        rfl
      · subst hw'
        exact ⟨hsame.buffer, hsame.buflen, hsame.values, hsame.commitMax,
          (by decide : 0 < rowsBeforeCommit), hqueries, nofun, fun _ _ => rfl⟩
    · -- The counter stays below its limit, or the commit would be due.
      have hbelow : w₁.con.bulkCommitCnt < rowsBeforeCommit := by
        have hmax₁ : w₁.con.bulkCommitMax = rowsBeforeCommit := by rw [← hw']; exact hmax
        rw [← hmax₁]
        exact Nat.lt_of_not_le fun hc => hdue (.inr hc)
      refine ⟨w₁, false, by rw [if_neg hdue]; rfl, hcalm, ?_⟩
      subst hw'
      exact ⟨rfl, rfl, rfl, rfl, hbelow, (append_nil _).symm, nofun,
        fun _ hlast => absurd (.inl hlast) hdue⟩

/-- The insert goes out as it stands in the buffer, its terminator behind it, and then the
commit. -/
theorem Filling.sent_flush (hw : Filling D I p needsCommit start groups pending w)
    (hne : pending ≠ []) (hbuf : w.con.bulkBuffer = some buf) (b : Bool) :
    Sent p start (groups ++ [(pending, b)])
      (w.queries ++ ([(buf, w.con.bulkPtr)] ++ if b then [(commitText, 6)] else [])) := by
  obtain ⟨buf', hbuf', -, htext, hnul⟩ := hw.buffer
  cases hbuf.symm.trans hbuf'
  refine hw.sent.concat ?_ ?_
  · cases b with
    | false | true => simp [packet, hw.ptr, htext]
  · intro q hq
    rcases mem_append.mp hq with hq | hq
    · obtain rfl := mem_singleton.mp hq
      refine ⟨?_, by rw [hw.ptr]; exact hw.fits⟩
      rw [hw.ptr, htext]
      exact cstr_of_take hw.noNul (hnul hne)
    · cases b with
      | false => exact absurd hq (by simp)
      | true =>
        obtain rfl := mem_singleton.mp hq
        exact ⟨by decide, by decide⟩

/-- A flush submits the pending rows as one packet. -/
theorem Filling.flush (hacc : Accepts D I)
    (hw : Filling D I p needsCommit start groups pending w) (hne : pending ≠ []) (isLast : Bool) :
    ∃ w' b, dbBulkDoInsert D w isLast = .ok (w', 0) ∧
      Filling D I p needsCommit start (groups ++ [(pending, b)]) [] w' ∧
      (needsCommit = true → isLast = true → b = true) := by
  obtain ⟨buf, hbuf, hlen, htext, -⟩ := hw.buffer
  obtain ⟨w₁, r, hq, herr, hw₁, hsame, hqueries⟩ := hw.calm.query hacc buf w.con.bulkPtr
  obtain ⟨w₂, b, hcommit, hw₂, hc⟩ := hw₁.commit hacc (hsame.commitMax.trans hw.commitMax)
    (hsame.commitCnt.symm ▸ hw.commitCnt) isLast
  have hcnt : w.con.bulkCnt ≠ 0 := by
    rw [hw.cnt]
    simpa using hne
  have hvalues : w₂.con.bulkValues = p.length :=
    hc.values.trans (hsame.values.trans hw.values)
  have hprefix : buf.take p.length = p := take_prefix_of_insertText htext
  have hplen : p.length + 1 ≤ bulkPacketSize := by
    have hfits := hw.fits
    rw [insertText, length_append] at hfits
    omega
  refine ⟨{ w₂ with con.bulkPtr := w₂.con.bulkValues, con.bulkCnt := 0 }, b, ?_, ?_, hc.last⟩
  · rw [dbBulkDoInsert, if_neg hcnt, hbuf, Option.getD_some, hq]
    show (if !r ∧ w₁.con.error ≠ .none then _ else _) = _
    rw [if_neg (by simp [herr]), hcommit]
    rfl
  · refine ⟨⟨hw₂.drv, hw₂.allocated, hw₂.statement, hw₂.isOpen, hw₂.release⟩,
      ⟨buf, hc.buffer.trans (hsame.buffer.trans hbuf), hlen, ?_, fun hc => absurd rfl hc⟩, ?_,
      hc.buflen.trans (hsame.buflen.trans hw.buflen), rfl, hvalues,
      hc.commitMax.trans (hsame.commitMax.trans hw.commitMax), hc.commitCnt, ?_, ?_, ?_, ?_, ?_⟩
    · rw [insertText_nil]
      exact hprefix
    · rw [insertText_nil]
      exact hvalues
    · rw [insertText_nil]
      exact hplen
    · rw [insertText_nil]
      exact fun hc => hw.noNul (mem_append_left _ hc)
    · show Sent p start _ w₂.queries
      rw [hc.queries, hqueries, append_assoc]
      exact hw.sent_flush hne hbuf b
    · intro g hg
      rcases mem_append.mp hg with hg | hg
      · exact hw.nonempty g hg
      · obtain rfl := mem_singleton.mp hg
        exact hne
    · intro hneeds g hg
      rcases mem_append.mp hg with hg | hg
      · exact hw.uncommitted hneeds g hg
      · obtain rfl := mem_singleton.mp hg
        exact hc.notNeeded hneeds

/-! ### One row -/

/-- Every row but the first brings a comma along, so a text has room for its rows' count. -/
theorem length_le_insertText (p : Bytes) (rows : List Bytes) :
    rows.length ≤ (insertText p rows).length + 1 := by
  induction rows using reverseRecOn with
  | nil => simp
  | append_singleton rows row ih =>
    rw [insertText_concat, length_append, length_append, length_singleton]
    by_cases hne : rows = []
    · subst hne
      simp
    · rw [if_neg hne, length_cons]
      omega

/-- What is written for a row: the first stands without a comma. -/
theorem piece_eq {cnt : ℕ} (h : cnt = pending.length) (row : Bytes) :
    (if cnt > 0 then 44 :: row else row) = if pending = [] then row else 44 :: row := by
  subst h
  cases pending with
  | nil | cons r rest => rfl

variable {row : Bytes}

/-- The comma and the copy of `db_bulk_insert_next` are one write. -/
theorem store_eq {ptr : ℕ} (c : Prop) [Decidable c] (hnul : (0 : UInt8) ∉ row) :
    (if c then do
        let buffer ← writeAt buf ptr [44]
        strcpy buffer (ptr + 1) row
      else strcpy buf ptr row) = writeAt buf ptr ((if c then 44 :: row else row) ++ [0]) := by
  by_cases hc : c
  · rw [if_pos hc, if_pos hc]
    simp only [strcpy, cstr_of_no_nul hnul]
    exact writeAt_writeAt buf [44] (row ++ [0]) ptr
  · rw [if_neg hc, if_neg hc, strcpy, cstr_of_no_nul hnul]

/-- The stores of `db_bulk_insert_next`, where the row fits. -/
theorem Filling.store (hw : Filling D I p needsCommit start groups pending w)
    (hnul : (0 : UInt8) ∉ row)
    (hfit : (insertText p (pending ++ [row])).length + 1 ≤ bulkPacketSize) :
    ∃ buf, (if w.con.bulkCnt > 0 then do
        let buffer ← writeAt (w.con.bulkBuffer.getD []) w.con.bulkPtr [44]
        strcpy buffer (w.con.bulkPtr + 1) row
      else strcpy (w.con.bulkBuffer.getD []) w.con.bulkPtr row) = some buf ∧
      buf.length = bulkPacketSize ∧
      buf.take ((insertText p (pending ++ [row])).length + 1)
        = insertText p (pending ++ [row]) ++ [0] := by
  obtain ⟨buf, hbuf, hlen, htext, -⟩ := hw.buffer
  rw [store_eq _ hnul, hbuf, hw.ptr, piece_eq hw.cnt row]
  rw [insertText_concat, length_append] at hfit
  rw [insertText_concat]
  generalize (if pending = [] then row else 44 :: row) = piece at hfit ⊢
  have hroom : (insertText p pending).length + (piece ++ [0]).length ≤ buf.length := by
    rw [length_append, length_singleton]
    omega
  obtain ⟨buf', hwrite, hlen'⟩ := exists_writeAt hroom
  refine ⟨buf', hwrite, hlen'.trans hlen, ?_⟩
  have htake := take_writeAt_append hwrite
  rw [htext, length_append, length_singleton] at htake
  rw [length_append, Nat.add_assoc, htake, append_assoc]

theorem Filling.append (hw : Filling D I p needsCommit start groups pending w)
    (hnul : (0 : UInt8) ∉ row)
    (hfit : (insertText p (pending ++ [row])).length + 1 ≤ bulkPacketSize) :
    ∃ w', dbBulkAppend w row row.length = .ok (w', 0) ∧
      Filling D I p needsCommit start groups (pending ++ [row]) w' := by
  obtain ⟨buf, hstore, hlen, htext⟩ := hw.store hnul hfit
  have hcnt : w.con.bulkCnt = 0 ↔ pending = [] := by rw [hw.cnt, length_eq_zero_iff]
  refine ⟨{ w with
    con.bulkBuffer := some buf
    con.bulkPtr := (w.con.bulkPtr + row.length + if w.con.bulkCnt > 0 then 1 else 0) % 2 ^ 32
    con.bulkCnt := (w.con.bulkCnt + 1) % 2 ^ 32 }, ?_, ?_⟩
  · unfold dbBulkAppend
    simp only [hstore]
  · have hbound : bulkPacketSize < 2 ^ 32 := by decide
    have hptr : w.con.bulkPtr + row.length + (if w.con.bulkCnt > 0 then 1 else 0)
        = (insertText p (pending ++ [row])).length := by
      rw [insertText_concat, length_append, hw.ptr]
      by_cases hne : pending = []
      · rw [if_neg (by rw [hcnt.mpr hne]; simp), if_pos hne]
        omega
      · rw [if_pos (Nat.pos_of_ne_zero fun hc => hne (hcnt.mp hc)), if_neg hne, length_cons]
        omega
    refine ⟨⟨hw.calm.drv, hw.calm.allocated, hw.calm.statement, hw.calm.isOpen, hw.calm.release⟩,
      ⟨buf, rfl, hlen, ?_, fun _ => htext⟩, ?_, hw.buflen, ?_, hw.values, hw.commitMax,
      hw.commitCnt, hfit, ?_, hw.sent, hw.nonempty, hw.uncommitted⟩
    · have htake := congrArg (take (insertText p (pending ++ [row])).length) htext
      rw [take_take, Nat.min_eq_left (Nat.le_succ _), take_left] at htake
      exact htake
    · show (w.con.bulkPtr + row.length + if w.con.bulkCnt > 0 then 1 else 0) % 2 ^ 32 = _
      rw [hptr]
      exact Nat.mod_eq_of_lt (by omega)
    · show (w.con.bulkCnt + 1) % 2 ^ 32 = _
      have hcount := length_le_insertText p (pending ++ [row])
      rw [length_append, length_singleton] at hcount ⊢
      rw [hw.cnt]
      exact Nat.mod_eq_of_lt (by omega)
    · rw [insertText_concat]
      intro hc
      rcases mem_append.mp hc with hc | hc
      · exact hw.noNul hc
      · split at hc
        · exact hnul hc
        · rcases mem_cons.mp hc with hc | hc
          · exact absurd hc (by decide)
          · exact hnul hc

theorem Filling.release (hw : Filling D I p needsCommit start groups pending w) :
    ∃ w', releaseResults D w = .ok (w', true) ∧ w'.con.state = .ready ∧
      Filling D I p needsCommit start groups pending w' := by
  obtain ⟨w', hrel, hcalm, hready, hsame, hqueries⟩ := hw.calm.releaseResults
  refine ⟨w', hrel, hready, hcalm, ?_, hsame.ptr.trans hw.ptr, hsame.buflen.trans hw.buflen,
    hsame.cnt.trans hw.cnt, hsame.values.trans hw.values, hsame.commitMax.trans hw.commitMax,
    hsame.commitCnt.symm ▸ hw.commitCnt, hw.fits, hw.noNul, hqueries.symm ▸ hw.sent, hw.nonempty,
    hw.uncommitted⟩
  rw [hsame.buffer]
  exact hw.buffer

/-- The question `db_bulk_insert_next` asks is whether the text with the row fits. -/
theorem Filling.fits_iff (hw : Filling D I p needsCommit start groups pending w) (row : Bytes) :
    w.con.bulkPtr + row.length + 1 + (if w.con.bulkCnt > 0 then 1 else 0) > w.con.bulkBuflen ↔
      bulkPacketSize < (insertText p (pending ++ [row])).length + 1 := by
  rw [hw.ptr, hw.cnt, hw.buflen, insertText_concat, length_append]
  by_cases hne : pending = []
  · subst hne
    simp only [length_nil, gt_iff_lt, Nat.lt_irrefl, if_false, if_true, Nat.add_zero]
  · rw [if_pos (length_pos_iff.mpr hne), if_neg hne, length_cons]
    omega

theorem Filling.next_eq (hw : Filling D I p needsCommit start groups pending w) (row : Bytes) :
    ∃ w₁, Filling D I p needsCommit start groups pending w₁ ∧
      dbBulkInsertNext D w row row.length =
        if bulkPacketSize < (insertText p (pending ++ [row])).length + 1 then
          if pending = [] then pure (w₁, 1)
          else do
            let (w, rc) ← dbBulkDoInsert D w₁ false
            if rc ≠ 0 then pure (w, 1) else dbBulkAppend w row row.length
        else dbBulkAppend w₁ row row.length := by
  obtain ⟨w₁, hrel, -, hw₁⟩ := hw.release
  obtain ⟨buf, hbuf, -⟩ := hw₁.buffer
  have hcnt : w₁.con.bulkCnt = 0 ↔ pending = [] := by rw [hw₁.cnt, length_eq_zero_iff]
  refine ⟨w₁, hw₁, ?_⟩
  simp only [← hw₁.fits_iff row, ← hcnt]
  rw [dbBulkInsertNext, if_neg hw.calm.isOpen, hrel]
  simp only [bind, Except.bind, hbuf]
  rfl

theorem insertText_singleton (p row : Bytes) : insertText p ([] ++ [row]) = p ++ row := by
  rw [insertText_concat, if_pos rfl, insertText_nil]

/-- A row no longer than a packet is taken, after a flush if need be. -/
theorem Filling.next (hacc : Accepts D I) (hw : Filling D I p needsCommit start groups pending w)
    (hnul : (0 : UInt8) ∉ row) (hrow : p.length + row.length + 1 ≤ bulkPacketSize) :
    ∃ w' groups' pending', dbBulkInsertNext D w row row.length = .ok (w', 0) ∧
      Filling D I p needsCommit start groups' pending' w' ∧ pending' ≠ [] ∧
      (groups'.map Prod.fst).flatten ++ pending'
        = (groups.map Prod.fst).flatten ++ pending ++ [row] := by
  obtain ⟨w₁, hw₁, hcall⟩ := hw.next_eq row
  have halone : (insertText p ([] ++ [row])).length + 1 ≤ bulkPacketSize := by
    rw [insertText_singleton, length_append]
    exact hrow
  by_cases hfull : bulkPacketSize < (insertText p (pending ++ [row])).length + 1
  · have hne : pending ≠ [] := by
      rintro rfl
      exact absurd hfull (Nat.not_lt.mpr halone)
    obtain ⟨w₂, b, hflush, hw₂, -⟩ := hw₁.flush hacc hne false
    obtain ⟨w₃, happend, hw₃⟩ := hw₂.append hnul halone
    refine ⟨w₃, _, _, ?_, hw₃, by simp, ?_⟩
    · rw [hcall, if_pos hfull, if_neg hne, hflush]
      exact happend
    · simp
  · obtain ⟨w₂, happend, hw₂⟩ := hw₁.append hnul (Nat.le_of_not_lt hfull)
    refine ⟨w₂, groups, _, ?_, hw₂, by simp, by rw [append_assoc]⟩
    rw [hcall, if_neg hfull]
    exact happend

/-- A row longer than any packet, given while others are pending, is copied past the end:
the flush makes room up to the prefix, and the code does not look again. -/
theorem Filling.overrun (hacc : Accepts D I) (hw : Filling D I p needsCommit start groups pending w)
    (hne : pending ≠ []) (hnul : (0 : UInt8) ∉ row)
    (hlong : bulkPacketSize < p.length + row.length + 1) :
    dbBulkInsertNext D w row row.length = .error .outOfBounds := by
  obtain ⟨w₁, hw₁, hcall⟩ := hw.next_eq row
  have hfull : bulkPacketSize < (insertText p (pending ++ [row])).length + 1 := by
    rw [insertText_concat, if_neg hne, insertText]
    simp only [length_append, length_cons]
    omega
  obtain ⟨w₂, b, hflush, hw₂, -⟩ := hw₁.flush hacc hne false
  obtain ⟨buf, hbuf, hlen, -⟩ := hw₂.buffer
  have hcnt : ¬w₂.con.bulkCnt > 0 := by
    rw [hw₂.cnt]
    exact Nat.lt_irrefl 0
  have hcopy : strcpy buf w₂.con.bulkPtr row = none := by
    rw [strcpy, cstr_of_no_nul hnul, writeAt, if_neg]
    rw [hw₂.ptr, hlen, length_append, length_singleton, insertText, length_append]
    omega
  rw [hcall, if_pos hfull, if_neg hne, hflush]
  show dbBulkAppend w₂ row row.length = _
  rw [dbBulkAppend, if_neg hcnt, hbuf, Option.getD_some, hcopy]

/-! ### A whole bulk insert -/

/-- The connection as a successful `db_bulk_insert_init` leaves it. -/
def World.bulkStarted (w : World σ δ ρ) (caps : DrvCaps) (buffer : Bytes) (len : ℕ) :
    World σ δ ρ :=
  { w with
    con.bulkBuflen := bulkPacketSize
    con.bulkBuffer := some buffer
    con.bulkCommitMax := if caps.needsCommit then rowsBeforeCommit else 0
    con.bulkCommitCnt := 0
    con.bulkPtr := len % 2 ^ 32
    con.bulkValues := len % 2 ^ 32
    con.bulkCnt := 0 }

variable {malloc : Option (ℕ → UInt8)}

/-- The ways `db_bulk_insert_init` ends: nothing done, an error, or an empty batch. -/
theorem dbBulkInsertInit_ok {query : Bytes} {rc : ℤ}
    (h : dbBulkInsertInit D w query len malloc = .ok (w', rc)) :
    (w.con.state = .invalid ∧ w' = w) ∨ releaseResults D w = .ok (w', false) ∨
      ∃ w₁, w.con.state ≠ .invalid ∧ releaseResults D w = .ok (w₁, true) ∧
        ((rc = 1 ∧ (w' = (dbDescribe D w₁).1 ∨
          (dbDescribe D w₁).2 ≠ none ∧ len + 1 ≤ bulkPacketSize ∧ w' = { (dbDescribe D w₁).1 with
            con.bulkBuflen := bulkPacketSize, con.bulkBuffer := none })) ∨
        ∃ caps fresh buffer, rc = 0 ∧ (dbDescribe D w₁).2 = some caps ∧ len + 1 ≤ bulkPacketSize ∧
          strcpy ((range bulkPacketSize).map fresh) 0 query = some buffer ∧
          w' = (dbDescribe D w₁).1.bulkStarted caps buffer len) := by
  unfold dbBulkInsertInit at h
  split at h
  · cases h
    exact .inl ⟨by assumption, rfl⟩
  · rename_i hopen
    obtain ⟨⟨w₁, b⟩, hrel, h⟩ := bind_eq_ok.mp h
    cases b with
    | false =>
      cases h
      exact .inr (.inl hrel)
    | true =>
      refine .inr (.inr ⟨w₁, hopen, hrel, ?_⟩)
      simp only [if_true] at h
      generalize dbDescribe D w₁ = described at h ⊢
      obtain ⟨w₂, caps⟩ := described
      cases caps with
      | none =>
        cases h
        exact .inl ⟨rfl, .inl rfl⟩
      | some caps =>
        by_cases hlong : len + 1 > bulkPacketSize
        · cases (if_pos hlong).symm.trans h
          exact .inl ⟨rfl, .inl rfl⟩
        · have h := (if_neg hlong).symm.trans h
          cases malloc with
          | none =>
            cases h
            exact .inl ⟨rfl, .inr ⟨nofun, Nat.le_of_not_lt hlong, rfl⟩⟩
          | some fresh =>
            simp only at h
            split at h
            · cases h
            · rename_i buffer hcopy
              cases h
              exact .inr ⟨caps, fresh, buffer, rfl, rfl, Nat.le_of_not_lt hlong, hcopy, rfl⟩

variable {caps : DrvCaps}

theorem dbDescribe_caps (h : (dbDescribe D w).2 = some caps) :
    (dbDescribe D w).1 = w.record .describe := by
  unfold dbDescribe at h ⊢
  split at h
  · cases h
  · rfl

/-- The buffer behind a successful `db_bulk_insert_init`, and the position in it. -/
theorem bulkStarted_buffer {q : Bytes} {fresh : ℕ → UInt8} (hnul : (0 : UInt8) ∉ q)
    (hlen : q.length + 1 ≤ bulkPacketSize)
    (hcopy : strcpy ((range bulkPacketSize).map fresh) 0 q = some buf) :
    buf.length = bulkPacketSize ∧ buf.take q.length = q ∧ q.length % 2 ^ 32 = q.length := by
  rw [strcpy, cstr_of_no_nul hnul] at hcopy
  refine ⟨?_, ?_, Nat.mod_eq_of_lt (lt_of_lt_of_le (Nat.lt_of_succ_le hlen) (by decide))⟩
  · rw [length_writeAt hcopy, length_map, length_range]
  · have hcut := congrArg (take q.length) (take_writeAt_append hcopy)
    simpa [take_take] using hcut

/-- The end of the calls that return a code. -/
theorem code_of_bind {call : Except Fault (World σ δ ρ × ℤ)} {r : DbRet}
    (h : (call >>= fun a => pure (a.1, DbRet.code a.2)) = .ok (w', r)) :
    ∃ rc, r = .code rc ∧ call = .ok (w', rc) := by
  obtain ⟨⟨w₁, rc⟩, hcall, hpure⟩ := bind_eq_ok.mp h
  cases hpure
  exact ⟨rc, rfl, hcall⟩

theorem dbStep_bulkInit {r : DbRet}
    (h : dbStep D w (.bulkInsertInit p len malloc) = .ok (w', r)) :
    ∃ rc, r = .code rc ∧ dbBulkInsertInit D w p len malloc = .ok (w', rc) :=
  code_of_bind (dbCall_of_dbStep h).2

/-- `db_bulk_insert_init` on an open connection without a result set leaves an empty batch. -/
theorem Filling.init (hI : I w.drv) (hready : w.con.state = .ready)
    (hstmt : ReturnsRows D I → w.statementRef ≠ .dangling) (hnul : (0 : UInt8) ∉ p)
    (hcaps : (dbDescribe D w).2 = some caps)
    (hstep : dbStep D w (.bulkInsertInit p p.length malloc) = .ok (w', .code 0)) :
    Filling D I p caps.needsCommit w.queries [] [] w' := by
  obtain ⟨hfreed, -⟩ := dbCall_of_dbStep hstep
  obtain ⟨rc, hrc, h⟩ := dbStep_bulkInit hstep
  cases hrc
  have hrel : releaseResults D w = .ok (w, true) := by
    rw [releaseResults, if_neg (by rw [hready]; nofun)]
    rfl
  rcases dbBulkInsertInit_ok h with ⟨hinvalid, -⟩ | hfail | ⟨w₁, -, hrel₁, hend⟩
  · cases hready.symm.trans hinvalid
  · cases hrel.symm.trans hfail
  cases hrel.symm.trans hrel₁
  rcases hend with ⟨hone, -⟩ | ⟨caps', fresh, buf, -, hcaps', hlen, hcopy, rfl⟩
  · cases hone
  cases hcaps.symm.trans hcaps'
  rw [dbDescribe_caps hcaps]
  obtain ⟨hsize, htext, hptr⟩ := bulkStarted_buffer hnul hlen hcopy
  refine ⟨⟨hI, hfreed, hstmt, ?_, ?_⟩, ⟨buf, rfl, hsize, ?_, fun hc => absurd rfl hc⟩, ?_, rfl, rfl,
    hptr, rfl, (by decide : 0 < rowsBeforeCommit), ?_, ?_, ⟨[], ?_, rfl, nofun⟩, nofun,
    fun _ => nofun⟩
  · show w.con.state ≠ _
    rw [hready]
    nofun
  · intro hc
    cases hready.symm.trans hc
  · rw [insertText_nil]
    exact htext
  · rw [insertText_nil]
    exact hptr
  · rw [insertText_nil]
    exact hlen
  · rw [insertText_nil]
    exact hnul
  · show (w.log ++ [_]).filterMap _ = _
    rw [filterMap_append]
    rfl

/-- The packets of a finished bulk insert: every row is in one, and none is empty.  A driver
that needs commits gets one behind the last packet, any other gets none. -/
structure Delivered (p : Bytes) (needsCommit : Bool) (rows : List Bytes)
    (start queries : List (Bytes × ℕ)) (groups : List (List Bytes × Bool)) : Prop where
  rows : (groups.map Prod.fst).flatten = rows
  nonempty : ∀ g ∈ groups, g.1 ≠ []
  sent : Sent p start groups queries
  committed : needsCommit = true → ∀ g ∈ groups.getLast?, g.2 = true
  uncommitted : needsCommit = false → ∀ g ∈ groups, g.2 = false

/-- `db_bulk_insert_done` submits what is pending. -/
theorem Filling.done (hacc : Accepts D I)
    (hw : Filling D I p needsCommit start groups pending w) (hlast : pending = [] → groups = []) :
    ∃ w' groups', dbBulkInsertDone D w = .ok (w', 0) ∧
      Delivered p needsCommit ((groups.map Prod.fst).flatten ++ pending) start w'.queries
        groups' := by
  by_cases hne : pending = []
  · obtain rfl := hlast hne
    subst hne
    refine ⟨{ w with con.bulkBuffer := none }, [], ?_, rfl, nofun, hw.sent, fun _ => nofun,
      fun _ => nofun⟩
    have hcnt : w.con.bulkCnt = 0 := hw.cnt
    rw [dbBulkInsertDone, dbBulkDoInsert, if_pos hcnt]
    rfl
  · obtain ⟨w₁, b, hflush, hw₁, hb⟩ := hw.flush hacc hne true
    refine ⟨{ w₁ with con.bulkBuffer := none }, _, ?_, ?_, hw₁.nonempty, hw₁.sent, ?_,
      hw₁.uncommitted⟩
    · rw [dbBulkInsertDone, hflush]
      rfl
    · simp
    · intro hneeds g hg
      rw [getLast?_append, getLast?_singleton, Option.some_or, Option.mem_some_iff] at hg
      rw [← hg]
      exact hb hneeds rfl

/-- The calls that follow the initialisation. -/
def bulkCalls (rows : List Bytes) : List DbCall :=
  rows.map (fun r => .bulkInsertNext r r.length) ++ [.bulkInsertDone]

theorem Filling.run (hacc : Accepts D I) (rows : List Bytes) :
    ∀ {groups : List (List Bytes × Bool)} {pending : List Bytes} {w : World σ δ ρ},
      Filling D I p needsCommit start groups pending w → (pending = [] → groups = []) →
      (∀ r ∈ rows, (0 : UInt8) ∉ r ∧ p.length + r.length + 1 ≤ bulkPacketSize) →
      ∃ w' groups',
        trace (dbStep D) w (bulkCalls rows)
          = .ok (w', replicate (rows.length + 1) (.code 0)) ∧
        Delivered p needsCommit ((groups.map Prod.fst).flatten ++ pending ++ rows) start w'.queries
          groups' := by
  induction rows with
  | nil =>
    intro groups pending w hw hlast _
    obtain ⟨w', groups', hdone, hdel⟩ := hw.done hacc hlast
    refine ⟨w', groups', ?_, by rwa [append_nil]⟩
    have hstep : dbStep D w .bulkInsertDone = .ok (w', .code 0) := by
      rw [dbStep, hw.calm.allocated, dbCall, hdone]
      rfl
    exact trace_cons hstep rfl
  | cons row rest ih =>
    intro groups pending w hw _ hrows
    obtain ⟨hnul, hrow⟩ := hrows row (by simp)
    obtain ⟨w₁, groups₁, pending₁, hnext, hw₁, hne, hsplit⟩ := hw.next hacc hnul hrow
    obtain ⟨w', groups', htrace, hdel⟩ := ih hw₁ (fun hc => absurd hc hne)
      (fun r hr => hrows r (by simp [hr]))
    refine ⟨w', groups', ?_, ?_⟩
    · have hstep : dbStep D w (.bulkInsertNext row row.length) = .ok (w₁, .code 0) := by
        rw [dbStep, hw.calm.allocated, dbCall, hnext]
        rfl
      exact trace_cons hstep htrace
    · rw [hsplit, append_assoc] at hdel
      exact hdel

/-- `db_bulk_insert_init` takes any prefix that fits the buffer, where the driver has
capabilities to report and there is memory. -/
theorem bulkInsertInit_accepts (p : Bytes) (fresh : ℕ → UInt8) (hfreed : w.freed = false)
    (hready : w.con.state = .ready) (hcaps : (dbDescribe D w).2 = some caps)
    (hlen : p.length + 1 ≤ bulkPacketSize) :
    ∃ w₁, dbStep D w (.bulkInsertInit p p.length (some fresh)) = .ok (w₁, .code 0) := by
  have hroom : 0 + p.length + 1 ≤ ((range bulkPacketSize).map fresh).length := by
    rw [length_map, length_range]
    omega
  obtain ⟨buf, hcopy, -⟩ := exists_strcpy hroom
  have hrel : releaseResults D w = .ok (w, true) := by
    rw [releaseResults, if_neg (by rw [hready]; decide)]
    rfl
  have hinit : dbBulkInsertInit D w p p.length (some fresh)
      = .ok ((dbDescribe D w).1.bulkStarted caps buf p.length, 0) := by
    rw [dbBulkInsertInit, if_neg (by rw [hready]; decide), hrel]
    simp only [bind, Except.bind, hcaps, if_neg (Nat.not_lt.mpr hlen), hcopy]
    rfl
  refine ⟨(dbDescribe D w).1.bulkStarted caps buf p.length, ?_⟩
  rw [dbStep, hfreed, dbCall, hinit]
  rfl

theorem mysqlDrvQuery_empty {args : MysqlArgs} (hdry : args.dryRun = false) {m : MysqlState}
    (data : RsData ℕ) (hm : m.server = fun _ => Answer.empty) :
    mysqlDrvQuery args m data = (m.tick.tick, .none, { data with counter := .other }) := by
  have hanswer : m.answer = Answer.empty := congrFun hm _
  have hanswer' : m.tick.answer = Answer.empty := congrFun hm _
  rw [mysqlDrvQuery, hdry, hanswer, mysqlStoreResult, hanswer']
  rfl

/-- A server that answers every query with success and no result set -/
theorem mysqlDriver_accepts (args : MysqlArgs) (hdry : args.dryRun = false) (describe) :
    let D := { mysqlDriver args with describe := describe }
    let I := fun m : MysqlState => m.server = fun _ => Answer.empty
    Accepts D I ∧ ¬ReturnsRows D I := by
  have hrows : ∀ {m : MysqlState} {data : RsData ℕ}, (m.server = fun _ => Answer.empty) →
      (mysqlDrvQuery args m data).2.2.counter ≠ .read := by
    intro m data hm
    rw [mysqlDrvQuery_empty hdry data hm]
    nofun
  refine ⟨⟨?_, ?_⟩, ?_⟩
  · intro m text len data hm
    show (mysqlDrvQuery args m data).2.1 = _ ∧ (mysqlDrvQuery args m data).1.server = _
    rw [mysqlDrvQuery_empty hdry data hm]
    exact ⟨rfl, hm⟩
  · intro m text len data stmt hm _ hread
    exact absurd hread (hrows hm)
  · rintro ⟨m, text, len, data, hm, hread⟩
    exact hrows hm hread

end Sysbench
