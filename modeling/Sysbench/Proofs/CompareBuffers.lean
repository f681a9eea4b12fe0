/-
Where the two renderings of the compare driver stay in their buffers.

Both print piece by piece and advance by what there was to print, not by what was
written.  `mysql_drv_execute` has a buffer that never grows and arrays for ten columns, so
that the width and the length of the text decide.  `mysql_drv_query` doubles its buffer at
most once in front of a column; it asks for the room of the cell, while the column is
printed as wide as its longest cell, and for the room of the longest cell in front of a
name.  `Fits` is that growth followed through, and there are two ways to keep it: a text
shorter than the first buffer, or columns whose cells and names are about equally long.
-/
import Sysbench.Proofs.ComparePrepared

namespace Sysbench.Compare

open List Function CMemory Runs

variable {n : ℕ}

/-! ### Prepared statements -/

namespace StmtResult

variable {t : StmtResult} {rsBuf : Bytes}

/-- The fields that `mysql_drv_execute` uses as indices of `is_null`, `length` and `bind`. -/
def fieldIndices (t : StmtResult) : List ℕ := List.range t.fields.length

/-- The prints of `mysql_drv_execute` into `rs_buf`, each with the buffer it finds. -/
def prints (t : StmtResult) (rsBuf : Bytes) : List (Out × Bytes) :=
  Cmd.seen (fun _ => 0) t.stmtScript { mem := rsBuf, pos := 0 }

/-- Every index is inside its array, no print begins behind the end of the buffer, and the
rendering comes to its end. -/
structure InBounds (t : StmtResult) (rsBuf : Bytes) : Prop where
  indices : ∀ i ∈ t.fieldIndices, i < 10
  positions : ∀ p ∈ t.prints rsBuf, p.1.pos ≤ outputBufferSize
  ends : ∃ o, Cmd.run (fun _ => 0) t.stmtScript { mem := rsBuf, pos := 0 } = some o

theorem stmtScript_eq_append (h : t.rows ≠ []) :
    ∃ cmds, t.stmtScript = cmds ++ [.print [10]] := by
  obtain ⟨rows, row, hrows⟩ := (eq_nil_or_concat t.rows).resolve_left h
  rw [stmtScript, hrows, concat_eq_append, zipIdx_append, flatMap_append]
  simp only [zipIdx_cons, zipIdx_nil, flatMap_cons, flatMap_nil,
    append_nil, rowScript]
  exact ⟨_, (append_assoc _ _ _).symm⟩

theorem text_of_rows_nil (h : t.rows = []) : t.text = [] := by
  rw [text, h]
  rfl

/-- The rows can be printed if and only if the line feed behind the last one begins inside the
buffer or right behind it. -/
theorem run_stmtScript_iff (hsize : rsBuf.length = outputBufferSize) :
    (∃ o, Cmd.run (fun _ => 0) t.stmtScript { mem := rsBuf, pos := 0 } = some o) ↔
      t.text.length ≤ outputBufferSize + 1 := by
  by_cases hrows : t.rows = []
  · have hscript : t.stmtScript = [] := by
      rw [stmtScript, hrows]
      rfl
    rw [hscript, text_of_rows_nil hrows]
    exact iff_of_true ⟨_, rfl⟩ (Nat.zero_le _)
  · obtain ⟨cmds, hcmds⟩ := stmtScript_eq_append hrows
    have hprints : ∀ need, Cmd.reserve need ∉ cmds := by
      intro need hc
      apply reserve_not_mem_stmtScript t need
      rw [hcmds]
      exact mem_append_left _ hc
    have hlen : t.text.length = (Cmd.printed cmds).length + 1 := by
      rw [← printed_stmtScript, hcmds, Cmd.printed_append, length_append]
      rfl
    have hextent : (Cmd.extent (cmds ++ [.print [10]]) outputBufferSize 0).isSome ↔
        0 + (Cmd.printed cmds).length ≤ outputBufferSize :=
      Cmd.extent_prints hprints (by decide) 0
    rw [← Option.isSome_iff_exists, ← Option.isSome_map, Cmd.run_extent, hsize, hcmds]
    rw [hextent, hlen]
    omega

/-- A result of columns the driver knows is rendered in bounds if and only if it has at most ten
of them and its text ends at most one byte behind the buffer. -/
theorem inBounds_iff (hsize : rsBuf.length = outputBufferSize) :
    t.InBounds rsBuf ↔ t.fields.length ≤ 10 ∧ t.text.length ≤ outputBufferSize + 1 := by
  have hindices : (∀ i ∈ t.fieldIndices, i < 10) ↔ t.fields.length ≤ 10 := by
    simp only [fieldIndices, mem_range]
    refine ⟨fun h => ?_, fun h i hi => by omega⟩
    by_contra hc
    exact absurd (h 10 (by omega)) (by decide)
  rw [← run_stmtScript_iff hsize, ← hindices]
  refine ⟨fun h => ⟨h.indices, h.ends⟩, fun ⟨h, o, hrun⟩ => ⟨h, fun p hp => ?_, o, hrun⟩⟩
  have hlen := Cmd.length_of_mem_seen _ _ (reserve_not_mem_stmtScript t) p hp
  rw [← hsize, ← hlen]
  exact Cmd.pos_le_of_run _ _ hrun p hp

/-- What `mysql_drv_execute` can bind and print. -/
structure Renderable (t : StmtResult) : Prop where
  narrow : t.fields.length ≤ 10
  known : ∀ row ∈ t.rows, StmtCell.other ∉ row
  short : t.text.length ≤ outputBufferSize + 1

theorem renderRows_of_known (h : ∀ row ∈ t.rows, StmtCell.other ∉ row) (rsBuf : Bytes) :
    renderRows rsBuf t
      = match Cmd.run (fun _ => 0) t.stmtScript { mem := rsBuf, pos := 0 } with
        | none => .error .outOfBounds
        | some o => .ok o.mem := by
  have hnone : ¬(t.rows.any fun row => row.contains .other) = true := by simpa using h
  exact if_neg hnone

theorem renderRows_ok_iff (hsize : rsBuf.length = outputBufferSize) :
    (∃ mem, renderRows rsBuf t = .ok mem) ↔
      (∀ row ∈ t.rows, StmtCell.other ∉ row) ∧ t.text.length ≤ outputBufferSize + 1 := by
  by_cases hknown : ∀ row ∈ t.rows, StmtCell.other ∉ row
  · rw [renderRows_of_known hknown, ← run_stmtScript_iff hsize]
    cases Cmd.run (fun _ => 0) t.stmtScript { mem := rsBuf, pos := 0 } with
    | none => simp
    | some o => simpa using hknown
  · have hother : (t.rows.any fun row => row.contains .other) = true := by simpa using hknown
    rw [renderRows, if_pos hother]
    simp [hknown]

theorem Renderable.renderRows (h : t.Renderable) (hsize : rsBuf.length = outputBufferSize) :
    ∃ mem, renderRows rsBuf t = .ok mem :=
  (renderRows_ok_iff hsize).mpr ⟨h.known, h.short⟩

end StmtResult

/-! ### The loop over the instances -/

section Execute

variable {args : MysqlArgs} {reconnects : Bool} {stmt : MultiStmt n} {t : Fin (n + 1) → StmtResult}

theorem executeLoop_outOfBounds_iff (hdml : isDml stmt.query = false)
    (hemulated : stmt.emulated = false) (htypes : ∀ i, ∀ f ∈ (t i).fields, f.2 ≠ .other)
    (is : List (Fin (n + 1))) :
    ∀ {v : ExecVars n}, v.Sized →
      (executeLoop args reconnects stmt (fun i => .fetched (t i)) is v = .error .outOfBounds ↔
        ∃ i ∈ is, ¬((t i).fields.length ≤ 10 ∧ (t i).text.length ≤ outputBufferSize + 1)) := by
  induction is with
  | nil =>
    simp [executeLoop]
  | cons i is ih =>
    intro v hv
    have hknown : ∀ row ∈ (t i).rows, StmtCell.other ∉ row := by
      simpa using StmtResult.no_other_of_types (htypes i)
    have hrender := StmtResult.renderRows_of_known hknown (v.rsBuf i)
    have hrun := StmtResult.run_stmtScript_iff (t := t i) (hv i)
    obtain ⟨u, hround⟩ := executeLoop_result hemulated hdml (fun i => .fetched (t i))
      (ExecAnswer.fetched_fine (t i)) rfl is v
    rw [hround, exists_mem_cons_iff, ← hrun]
    by_cases hwide : 10 < (t i).fields.length
    · rw [if_pos hwide]
      exact iff_of_true rfl (.inl fun hc => by omega)
    · rw [if_neg hwide]
      cases ho : Cmd.run (fun _ => 0) (t i).stmtScript { mem := v.rsBuf i, pos := 0 } with
      | none =>
        rw [ho] at hrender
        rw [hrender]
        exact iff_of_true rfl (.inl fun hc => by cases hc.2.choose_spec)
      | some o =>
        rw [ho] at hrender
        have hsized : ExecVars.Sized { u with rsBuf := update v.rsBuf i o.mem } :=
          hv.render hrender
        rw [hrender]
        refine (ih hsized).trans ⟨.inr, fun h => h.resolve_left fun hc => hc ?_⟩
        exact ⟨by omega, o, rfl⟩

/-- **The buffers of a prepared statement.**  The rendering of a result set, with columns of the two
types the driver knows, stays in its arrays and its buffer if and only if there are at most ten
columns and the text is no longer than the buffer and one byte.  On an instance for which it does
not, the call faults. -/
theorem prepared_buffers_iff (hdml : isDml stmt.query = false) (hemulated : stmt.emulated = false)
    (htypes : ∀ i, ∀ f ∈ (t i).fields, f.2 ≠ .other) {v : ExecVars n} (hv : v.Sized) :
    (∀ i, (t i).InBounds (v.rsBuf i) ↔
      (t i).fields.length ≤ 10 ∧ (t i).text.length ≤ outputBufferSize + 1) ∧
    (executeLoop args reconnects stmt (fun i => .fetched (t i)) (List.finRange (n + 1)) v
        = .error .outOfBounds ↔ ∃ i, ¬(t i).InBounds (v.rsBuf i)) := by
  have hbounds : ∀ i, (t i).InBounds (v.rsBuf i) ↔
      (t i).fields.length ≤ 10 ∧ (t i).text.length ≤ outputBufferSize + 1 := fun i =>
    StmtResult.inBounds_iff (hv i)
  refine ⟨hbounds, ?_⟩
  rw [executeLoop_outOfBounds_iff hdml hemulated htypes _ hv]
  simp only [mem_finRange, true_and, hbounds]

end Execute

/-- The variables of a call on two instances, with buffers full of NULs. -/
def blankVars : ExecVars 1 where
  conn := Conn.init 1
  rs := (Env.blank 1).rs
  rsBuf := fun _ => List.replicate outputBufferSize 0

theorem sized_blankVars : blankVars.Sized := fun _ => length_replicate

theorem one_number_is_rendered_in_bounds :
    (selectLongs 1 2 0).InBounds (blankVars.rsBuf 0) ∧
      (selectLongs 1 2 1).InBounds (blankVars.rsBuf 1) := by
  have hboth := @prepared_buffers_iff 1 strictArgs false selectStmt (selectLongs 1 2)
    (by decide) rfl (by decide) blankVars sized_blankVars
  have hsmall : ∀ i, (selectLongs 1 2 i).fields.length ≤ 10 ∧
      (selectLongs 1 2 i).text.length ≤ outputBufferSize + 1 := by
    decide
  exact ⟨(hboth.1 0).mpr (hsmall 0), (hboth.1 1).mpr (hsmall 1)⟩

/-- That many numbers and no rows. -/
def longColumns (k : ℕ) : StmtResult where
  fields := List.replicate k ([97], .long)
  rows := []
  names := by
    intro f hf
    rw [eq_of_mem_replicate hf]
    decide
  typed := nofun

/-- One row with one string, `a`. -/
def oneString (bytes : Bytes) : StmtResult where
  fields := [([97], .string)]
  rows := [[.string bytes]]
  names := by decide
  typed := by
    intro row hrow
    rw [mem_singleton.mp hrow]
    exact .cons rfl .nil

theorem length_text_oneString {bytes : Bytes} (h : (0 : UInt8) ∉ bytes) :
    bytes.length ≤ (oneString bytes).text.length := by
  have htext : (oneString bytes).text
      = rowHead 1 ++ Compare.cellPiece [97] (.string bytes) ++ [10] := by
    simp [StmtResult.text, rowsText, rowText, oneString, cellsText, StmtResult.columns]
  rw [htext, Compare.cellPiece, if_neg (by simp), StmtCell.buffer, cstr_of_no_nul h]
  simp only [length_append]
  omega

/-- With eleven columns the arrays are left, with a string of 5000 bytes the buffer is. -/
theorem wide_and_long_results_leave_bounds :
    ¬(longColumns 11).InBounds (blankVars.rsBuf 0) ∧
    ¬(oneString (List.replicate 5000 97)).InBounds (blankVars.rsBuf 0) ∧
    executeLoop strictArgs false selectStmt (fun _ => .fetched (longColumns 11))
      (List.finRange 2) blankVars = .error .outOfBounds ∧
    executeLoop strictArgs false selectStmt
      (fun _ => .fetched (oneString (List.replicate 5000 97))) (List.finRange 2) blankVars
      = .error .outOfBounds := by
  have hwide : ¬((longColumns 11).fields.length ≤ 10 ∧
      (longColumns 11).text.length ≤ outputBufferSize + 1) := by
    simp [longColumns]
  have hlong : ¬((oneString (List.replicate 5000 97)).fields.length ≤ 10 ∧
      (oneString (List.replicate 5000 97)).text.length ≤ outputBufferSize + 1) := by
    have hnul : (0 : UInt8) ∉ List.replicate 5000 97 := fun hc =>
      absurd (eq_of_mem_replicate hc) (by decide)
    have hlen := length_text_oneString hnul
    rw [length_replicate] at hlen
    intro hc
    exact absurd (hlen.trans hc.2) (by decide)
  refine ⟨?_, ?_, ?_, ?_⟩
  · rwa [StmtResult.inBounds_iff (sized_blankVars 0)]
  · rwa [StmtResult.inBounds_iff (sized_blankVars 0)]
  · refine (executeLoop_outOfBounds_iff (by decide) rfl ?_ _ sized_blankVars).mpr
      ⟨0, mem_finRange 0, hwide⟩
    intro i f hf
    rw [eq_of_mem_replicate hf]
    decide
  · refine (executeLoop_outOfBounds_iff (by decide) rfl ?_ _ sized_blankVars).mpr
      ⟨0, mem_finRange 0, hlong⟩
    intro i f hf
    rw [mem_singleton.mp hf]
    decide

/-! ### Text queries -/

namespace StoredResult

variable {t : StoredResult}

/-- The prints of `mysql_drv_query`, each with the buffer it finds. -/
def prints (t : StoredResult) (heap : ℕ → UInt8) : List (Out × Bytes) :=
  Cmd.seen heap t.textScript { mem := (List.range 4096).map heap, pos := 0 }

/-- Every print begins inside the buffer and is not cut short, and there is room for the NUL at
the end. -/
structure SafelyRendered (heap : ℕ → UInt8) (t : StoredResult) : Prop where
  inside : ∀ p ∈ t.prints heap, p.1.pos < p.1.mem.length
  whole : ∀ p ∈ t.prints heap, p.1.pos + p.2.length < p.1.mem.length
  ends : ∃ o, Cmd.run heap t.textScript { mem := (List.range 4096).map heap, pos := 0 } = some o ∧
    o.pos < o.mem.length

theorem safelyRendered_iff (heap : ℕ → UInt8) : t.SafelyRendered heap ↔ t.Fits := by
  have hsize : ((range 4096).map heap).length = 4096 := by
    rw [length_map, length_range]
  have hfits : ∀ {mem : Bytes}, mem.length = 4096 → (t.Fits ↔
      (∀ p ∈ Cmd.seen heap t.textScript { mem := mem, pos := 0 },
        p.1.pos < p.1.mem.length ∧ p.1.pos + p.2.length < p.1.mem.length) ∧
      ∃ o, Cmd.run heap t.textScript { mem := mem, pos := 0 } = some o ∧
        o.pos < o.mem.length) := by
    intro mem hmem
    have hroom : (Out.mk mem 0).pos < (Out.mk mem 0).mem.length := by simp [hmem]
    rw [Fits, ← hmem]
    exact Cmd.fits_iff heap t.textScript hroom
  rw [hfits hsize]
  refine ⟨fun h => ⟨fun p hp => ⟨h.inside p hp, h.whole p hp⟩, h.ends⟩, fun h => ?_⟩
  exact ⟨fun p hp => (h.1 p hp).1, fun p hp => (h.1 p hp).2, h.2⟩

theorem fits_of_short (h : t.text.length < 4096) : t.Fits := by
  rw [← printed_textScript] at h
  apply Cmd.fits_of_printed_lt
  · omega
  · have : 4096 ≤ intMax := by decide
    omega

/-- No cell is much shorter than its column, no name much longer, and no column wider than the
smallest buffer. -/
structure Uniform (t : StoredResult) : Prop where
  columns : t.fields ≠ []
  width : ∀ j < t.fields.length, t.maxLength j + 10 ≤ 4097
  names : ∀ j < t.fields.length, (t.name j).length ≤ t.maxLength j + 5
  cells : ∀ j < t.fields.length, ∀ row ∈ t.rows, t.maxLength j ≤ fetchLength row j + 2

/-- A column in front of which `mysql_drv_query` asks for room, in the line of names. -/
def namePiece (t : StoredResult) (j : ℕ) : Bytes :=
  [124, 32] ++ List.rightpad (t.maxLength j + 2) 32 (t.name j)

/-- And in the line of a row. -/
def cellPiece (t : StoredResult) (row : List (Option Bytes)) (j : ℕ) : Bytes :=
  [124, 32] ++ List.rightpad (t.maxLength j + 2) 32 (cellText row j) ++ [32]

theorem length_namePiece (t : StoredResult) (j : ℕ) :
    (t.namePiece j).length = max (t.maxLength j + 2) (t.name j).length + 2 := by
  simp only [namePiece, length_append, length_cons, length_nil,
    length_rightpad]
  omega

theorem length_cellPiece (t : StoredResult) (row : List (Option Bytes)) (j : ℕ) :
    (t.cellPiece row j).length = max (t.maxLength j + 2) (cellText row j).length + 3 := by
  simp only [cellPiece, length_append, length_cons, length_nil,
    length_rightpad]
  omega

def rowScript (t : StoredResult) (row : List (Option Bytes)) : List Cmd :=
  (List.range t.fields.length).flatMap
    (fun j => [.reserve (fetchLength row j + 10), .print (t.cellPiece row j)]) ++ [.print [124, 10]]

theorem textScript_eq (t : StoredResult) :
    t.textScript = (range t.fields.length).flatMap
        (fun j => [.reserve (t.maxLength j + 10), .print (t.namePiece j)]) ++
      .print [124, 10] :: t.rows.flatMap t.rowScript := by
  rw [textScript, append_assoc]
  rfl

theorem Uniform.fits_rows (h : t.Uniform) (rows : List (List (Option Bytes)))
    (hrows : ∀ row ∈ rows, row ∈ t.rows) :
    ∀ {size pos : ℕ}, 4096 ≤ size → pos < size →
      pos + (Cmd.printed (rows.flatMap t.rowScript)).length ≤ intMax →
      Cmd.fits (rows.flatMap t.rowScript) size pos = true := by
  induction rows with
  | nil => exact fun _ _ _ => rfl
  | cons row rows ih =>
    intro size pos hsize hpos hint
    obtain ⟨hrow, hrows⟩ := forall_mem_cons.mp hrows
    have hprinted : (Cmd.printed (t.rowScript row)).length
        = ((range t.fields.length).flatMap (t.cellPiece row)).length + 2 := by
      rw [rowScript, Cmd.printed_append, Cmd.printed_line, length_append]
      rfl
    rw [flatMap_cons, Cmd.printed_append, length_append, hprinted] at hint
    rw [flatMap_cons, rowScript, append_assoc, singleton_append]
    apply Cmd.fits_line _ (by simpa using h.columns) _ hsize hpos
    · simp only [length_cons, length_nil]
      omega
    · intro size' hsize' hpos'
      simp only [length_cons, length_nil] at hpos' ⊢
      exact ih hrows hsize' hpos' (by omega)
    · intro j hj
      have hwidth := h.width j (mem_range.mp hj)
      have hcell := h.cells j (mem_range.mp hj) row hrow
      have hfetch := fetchLength_le hrow j
      have htext := cellText_length_le hrow j
      simp only [length_cellPiece, length_cons, length_nil]
      omega

theorem Uniform.fits (h : t.Uniform) (hint : t.text.length ≤ intMax) : t.Fits := by
  have hprinted : t.text.length = ((range t.fields.length).flatMap t.namePiece).length + 2 +
      (Cmd.printed (t.rows.flatMap t.rowScript)).length := by
    rw [← printed_textScript, textScript_eq, Cmd.printed_append, Cmd.printed_line, Cmd.printed,
      length_append, length_append, Nat.add_assoc]
    rfl
  rw [Fits, textScript_eq]
  apply Cmd.fits_line _ (by simpa using h.columns) _ (Nat.le_refl 4096) (by decide)
  · simp only [length_cons, length_nil]
    omega
  · intro size hsize hpos
    simp only [length_cons, length_nil] at hpos ⊢
    exact h.fits_rows t.rows (fun _ hrow => hrow) hsize hpos (by omega)
  · intro j hj
    have hwidth := h.width j (mem_range.mp hj)
    have hname := h.names j (mem_range.mp hj)
    simp only [length_namePiece, length_cons, length_nil]
    omega

/-- The rendering runs to its end, the NUL included, though it may have cut something short. -/
def Renderable (t : StoredResult) : Prop :=
  ∃ size pos, Cmd.extent t.textScript 4096 0 = some (size, pos) ∧ pos < size

theorem renderResult_ok_iff (heap : ℕ → UInt8) :
    (∃ mem, renderResult heap t = .ok mem) ↔ t.Renderable := by
  have hsize : ((range 4096).map heap).length = 4096 := by
    rw [length_map, length_range]
  unfold renderResult Renderable
  generalize (range 4096).map heap = mem at hsize
  rw [← hsize]
  have hrun := Cmd.run_extent heap t.textScript { mem := mem, pos := 0 }
  cases ho : Cmd.run heap t.textScript { mem := mem, pos := 0 } with
  | none =>
    rw [ho, Option.map_none] at hrun
    rw [← hrun]
    simp
  | some o =>
    rw [ho, Option.map_some] at hrun
    rw [← hrun]
    simp only [writeAt, length_singleton, Option.some.injEq, Prod.mk.injEq]
    by_cases hend : o.pos + 1 ≤ o.mem.length
    · rw [if_pos hend]
      exact iff_of_true ⟨_, rfl⟩ ⟨_, _, ⟨rfl, rfl⟩, hend⟩
    · rw [if_neg hend]
      refine iff_of_false (by rintro ⟨_, ⟨⟩⟩) ?_
      rintro ⟨size, pos, ⟨rfl, rfl⟩, hc⟩
      exact hend hc

theorem renderResult_outOfBounds (heap : ℕ → UInt8) (h : ¬t.Renderable) :
    renderResult heap t = .error .outOfBounds := by
  rw [← renderResult_ok_iff heap] at h
  unfold renderResult at h ⊢
  split at h
  · rfl
  · rename_i o _
    split at h
    · rfl
    · exact absurd ⟨_, rfl⟩ h

end StoredResult

/-- **The buffer of a text query.**  The rendering begins each print inside the buffer and cuts
none short if and only if the result set fits, the growth of the buffer followed through.  That is
so for every text shorter than the first buffer, and for every uniform result set whose text has
an `int` length. -/
theorem text_buffer_iff (heap : ℕ → UInt8) (t : StoredResult) :
    (t.SafelyRendered heap ↔ t.Fits) ∧
    (t.text.length < 4096 → t.SafelyRendered heap) ∧
    (t.Uniform → t.text.length ≤ intMax → t.SafelyRendered heap) := by
  have hiff : t.SafelyRendered heap ↔ t.Fits := StoredResult.safelyRendered_iff heap
  refine ⟨hiff, fun hshort => ?_, fun huniform hint => ?_⟩
  · exact hiff.mpr (StoredResult.fits_of_short hshort)
  · exact hiff.mpr (huniform.fits hint)

theorem one_letter_is_safely_rendered :
    (oneCell (some [120])).SafelyRendered (fun _ => 0) ∧ (oneCell (some [120])).Uniform := by
  have huniform : (oneCell (some [120])).Uniform := by
    constructor <;> decide
  exact ⟨(text_buffer_iff _ _).2.2 huniform (by decide), huniform⟩

/-- Two rows with one string, `a`: one byte, and then `long`. -/
def shortThenLong (long : Bytes) : StoredResult where
  fields := [[97]]
  rows := [[some [97]], [some long]]
  names := names_a
  width := by simp

/-- The column is printed as wide as its longest cell, and for the first row the driver asks for
eleven bytes. -/
theorem not_renderable_shortThenLong {long : Bytes} (h : long.length = 4000) :
    ¬(shortThenLong long).Renderable := by
  have hwidth : (shortThenLong long).maxLength 0 = 4000 := by
    simp [StoredResult.maxLength, shortThenLong, fetchLength, cell, h]
  have hfields : (shortThenLong long).fields = [[97]] := rfl
  have hrows : (shortThenLong long).rows = [[some [97]], [some long]] := rfl
  have hname : (shortThenLong long).name 0 = [97] := rfl
  have hcell : cellText [some [97]] 0 = [97] := rfl
  rintro ⟨size, pos, hextent, -⟩
  rw [StoredResult.textScript_eq, hfields, hrows] at hextent
  simp [Cmd.extent, StoredResult.length_namePiece, StoredResult.rowScript,
    StoredResult.length_cellPiece, hfields, hwidth, hname, hcell, fetchLength, cell] at hextent

theorem short_cell_in_wide_column_leaves_buffer :
    ¬(shortThenLong (List.replicate 4000 97)).SafelyRendered (fun _ => 0) ∧
      renderResult (fun _ => 0) (shortThenLong (List.replicate 4000 97))
        = .error .outOfBounds := by
  have hrender := StoredResult.renderResult_outOfBounds (fun _ => 0)
    (not_renderable_shortThenLong (length_replicate (n := 4000) (a := 97)))
  refine ⟨fun hc => ?_, hrender⟩
  obtain ⟨mem, hmem, -⟩ := StoredResult.renderResult_shows (fun _ => 0)
    ((StoredResult.safelyRendered_iff (fun _ => 0)).mp hc)
  exact nomatch hrender.symm.trans hmem

end Sysbench.Compare
