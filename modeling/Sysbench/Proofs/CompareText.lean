/-
What the compare driver sees of the result sets of a text query.

A result set is printed as a table: a line of names and a line for each row, the columns
led by bars and padded to the longest cell.  Where the text fits its buffer, the text of
an instance is that of its table, and the instances reported are those whose texts differ
from the first.  Without bars in names and cells, the text can be read back line by line
and column by column, up to what printing loses: NULL is printed like an empty string, a
cell ends at its first NUL byte, and blanks at the end are taken for padding.
`PrintAlike` is what is left.
-/
import Sysbench.Lib.Delimited
import Sysbench.Lib.Runs
import Sysbench.Model.CompareDriver

namespace Sysbench.Compare

open List Function CMemory Delimited Runs

variable {n : ℕ} {row : List (Option Bytes)}

/-! ### Reports -/

/-- The memory holds the C string `text`. -/
structure Shows (mem text : Bytes) : Prop where
  ended : (0 : UInt8) ∈ mem
  text : cstr mem = text

theorem Shows.of_take {mem text : Bytes} (hnul : (0 : UInt8) ∉ text)
    (h : mem.take (text.length + 1) = text ++ [0]) : Shows mem text := by
  refine ⟨?_, cstr_of_take hnul h⟩
  have hend : (0 : UInt8) ∈ mem.take (text.length + 1) := by
    rw [h]
    simp
  exact mem_of_mem_take hend

theorem compareWith_reports {first : Bytes} {texts : Fin (n + 1) → Option Bytes}
    {text : Fin (n + 1) → Bytes} (hfirst : Shows first (text 0))
    (htexts : ∀ i, ∃ mem, texts i = some mem ∧ Shows mem (text i)) (js : List (Fin (n + 1))) :
    ∃ ms, compareWith first texts js = .ok ms ∧
      ∀ i, (∃ m ∈ ms, m.index = i) ↔ i ∈ js ∧ text i ≠ text 0 := by
  induction js with
  | nil => exact ⟨[], rfl, by simp⟩
  | cons j js ih =>
    obtain ⟨ms, hms, hindex⟩ := ih
    obtain ⟨mem, hmem, hshow⟩ := htexts j
    have hcmp : strcmp first mem = some (decide (text 0 = text j)) := by
      rw [strcmp_eq hfirst.ended hshow.ended, hfirst.text, hshow.text]
    by_cases hsame : text 0 = text j
    · refine ⟨ms, ?_, fun i => ?_⟩
      · rw [compareWith, hmem]
        simp only [hcmp, hms, hsame, decide_true]
        rfl
      · rw [hindex i, mem_cons]
        refine and_congr_left fun hne => ⟨.inr, fun h => h.resolve_left ?_⟩
        rintro rfl
        exact hne hsame.symm
    · refine ⟨{ index := j, result0 := cstr first, result := cstr mem } :: ms, ?_, fun i => ?_⟩
      · rw [compareWith, hmem]
        simp only [hcmp, hms, hsame, decide_false]
        rfl
      · rw [mem_cons, or_and_right, ← hindex i]
        simp only [mem_cons, exists_eq_or_imp]
        refine or_congr_left ⟨?_, fun h => h.1.symm⟩
        rintro rfl
        exact ⟨rfl, Ne.symm hsame⟩

theorem mem_tail_finRange {i : Fin (n + 1)} : i ∈ (finRange (n + 1)).tail ↔ i ≠ 0 := by
  rw [finRange_succ, tail_cons, mem_map]
  refine ⟨?_, fun hi => ⟨i.pred hi, mem_finRange _, Fin.succ_pred i hi⟩⟩
  rintro ⟨k, -, rfl⟩
  exact Fin.succ_ne_zero k

theorem compareTexts_reports (texts : Fin (n + 1) → Option Bytes) {text : Fin (n + 1) → Bytes}
    (htexts : ∀ i, ∃ mem, texts i = some mem ∧ Shows mem (text i)) :
    ∃ ms, compareTexts true texts = .ok ms ∧
      ∀ i, (∃ m ∈ ms, m.index = i) ↔ text i ≠ text 0 := by
  obtain ⟨first, hfirst, hshow⟩ := htexts 0
  obtain ⟨ms, hms, hindex⟩ := compareWith_reports hshow htexts (finRange (n + 1)).tail
  refine ⟨ms, ?_, fun i => ?_⟩
  · rw [compareTexts, hfirst]
    exact hms
  · rw [hindex i]
    refine ⟨And.right, fun hne => ⟨?_, hne⟩⟩
    exact mem_tail_finRange.mpr fun hc => hne (by rw [hc])

theorem no_reports {ms : List (Mismatch n)} {text : Fin (n + 1) → Bytes}
    (h : ∀ i, (∃ m ∈ ms, m.index = i) ↔ text i ≠ text 0) (hsame : ∀ i, text i = text 0) :
    ms = [] := by
  refine eq_nil_iff_forall_not_mem.mpr fun m hm => ?_
  exact (h m.index).mp ⟨m, hm, rfl⟩ (hsame m.index)

/-! ### The text of a result set -/

namespace StoredResult

variable {t : StoredResult}

/-- The columns of a line, each without the bar in front of it. -/
def headerLine (t : StoredResult) : List Bytes :=
  (List.range t.fields.length).map fun j => 32 :: List.rightpad (t.maxLength j + 2) 32 (t.name j)

def rowLine (t : StoredResult) (row : List (Option Bytes)) : List Bytes :=
  (List.range t.fields.length).map fun j =>
    32 :: (List.rightpad (t.maxLength j + 2) 32 (cellText row j) ++ [32])

def lines (t : StoredResult) : List (List Bytes) := t.headerLine :: t.rows.map t.rowLine

/-- The text printed, were there always room: a bar leads every column and ends every line. -/
def text (t : StoredResult) : Bytes := (t.lines.flatMap (· ++ [[10]])).flatMap (124 :: ·)

theorem printed_textScript (t : StoredResult) : Cmd.printed t.textScript = t.text := by
  have hline : ∀ (f : ℕ → Cmd) (g : ℕ → Bytes) (js : List ℕ), (∀ j, ∃ k, f j = .reserve k) →
      Cmd.printed (js.flatMap fun j => [f j, .print ([124, 32] ++ g j)])
        = (js.map fun j => 32 :: g j).flatMap (124 :: ·) := by
    intro f g js hf
    rw [Cmd.printed_flatMap, flatMap_map]
    refine flatMap_congr fun j _ => ?_
    obtain ⟨k, hk⟩ := hf j
    simp [hk, Cmd.printed]
  unfold textScript text lines
  simp only [Cmd.printed_append, flatMap_cons, flatMap_append]
  refine congrArg₂ (· ++ ·) (congrArg₂ (· ++ ·) ?_ ?_) ?_
  · exact hline _ _ _ fun j => ⟨_, rfl⟩
  · rfl
  · rw [Cmd.printed_flatMap, flatMap_map, flatMap_assoc]
    refine flatMap_congr fun row _ => ?_
    rw [Cmd.printed_append, flatMap_append]
    refine congrArg₂ (· ++ ·) ?_ rfl
    have := hline (fun j => .reserve (fetchLength row j + 10))
      (fun j => rightpad (t.maxLength j + 2) 32 (cellText row j) ++ [32])
      (range t.fields.length) fun j => ⟨_, rfl⟩
    simpa [rowLine] using this

/-- Every piece of the text ends inside the buffer of 4096 bytes, as it grows; `lengthsFit` replays
the sizes. -/
def Fits (t : StoredResult) : Prop := Cmd.fits t.textScript 4096 0 = true

instance (t : StoredResult) : Decidable t.Fits := inferInstanceAs (Decidable (_ = true))

theorem not_mem_name {x : UInt8} (h : ∀ f ∈ t.fields, x ∉ f) (j : ℕ) : x ∉ t.name j := by
  intro hc
  unfold name at hc
  rw [getD_eq_getElem?_getD] at hc
  cases hj : t.fields[j]? with
  | none => simp [hj] at hc
  | some f =>
    rw [hj] at hc
    exact h f (mem_of_getElem? hj) hc

/-- A byte that is neither in the names nor in the texts of the cells is in no column. -/
theorem not_mem_body {x : UInt8} (hx : x ≠ 32) (hnames : ∀ j, x ∉ t.name j)
    (hcells : ∀ row ∈ t.rows, ∀ j, x ∉ cellText row j) :
    ∀ line ∈ t.lines, ∀ body ∈ line, x ∉ body := by
  have hpad : ∀ {w : ℕ} {s : Bytes}, x ∉ s → x ∉ rightpad w 32 s := by
    intro w s hs hc
    rcases mem_append.mp hc with hc | hc
    · exact hs hc
    · exact hx (eq_of_mem_replicate hc)
  intro line hline body hbody hc
  rcases mem_cons.mp hline with rfl | hline
  · obtain ⟨j, -, rfl⟩ := mem_map.mp hbody
    exact hpad (hnames j) ((mem_cons.mp hc).resolve_left hx)
  · obtain ⟨row, hrow, rfl⟩ := mem_map.mp hline
    obtain ⟨j, -, rfl⟩ := mem_map.mp hbody
    have hc := (mem_cons.mp hc).resolve_left hx
    rcases mem_append.mp hc with hc | hc
    · exact hpad (hcells row hrow j) hc
    · exact hx (mem_singleton.mp hc)

theorem no_nul_text (t : StoredResult) : (0 : UInt8) ∉ t.text := by
  have hcells : ∀ row ∈ t.rows, ∀ j, (0 : UInt8) ∉ cellText row j := by
    intro row _ j hc
    simpa using mem_takeWhile_imp hc
  intro hc
  obtain ⟨body, hbody, hc⟩ := mem_flatMap.mp hc
  have hc : (0 : UInt8) ∈ body := (mem_cons.mp hc).resolve_left (by decide)
  obtain ⟨line, hline, hbody⟩ := mem_flatMap.mp hbody
  rcases mem_append.mp hbody with hbody | hbody
  · exact not_mem_body (by decide) (not_mem_name t.names) hcells line hline body hbody hc
  · obtain rfl := mem_singleton.mp hbody
    exact absurd hc (by decide)

theorem renderResult_shows (heap : ℕ → UInt8) (hfits : t.Fits) :
    ∃ mem, renderResult heap t = .ok mem ∧ Shows mem t.text := by
  have hsize : ((range 4096).map heap).length = 4096 := by
    rw [length_map, length_range]
  obtain ⟨o, hrun, hholds⟩ := Cmd.run_of_fits heap t.textScript
    (Out.Holds.start ((range 4096).map heap)) (by rw [hsize]; exact hfits)
  rw [nil_append, printed_textScript] at hholds
  have hne : t.text ≠ [] := by
    have hend : [10] ∈ t.lines.flatMap (· ++ [[10]]) :=
      mem_flatMap.mpr ⟨t.headerLine, mem_cons_self, by simp⟩
    exact ne_nil_of_mem (mem_flatMap.mpr ⟨[10], hend, mem_cons_self⟩)
  have hroom : o.pos + [(0 : UInt8)].length ≤ o.mem.length := by
    have hlen := congrArg length (hholds.nul hne)
    rw [length_take, length_append, length_singleton] at hlen
    rw [hholds.pos, length_singleton]
    omega
  obtain ⟨mem, hwrite, -⟩ := exists_writeAt hroom
  have htake := take_writeAt_append hwrite
  rw [hholds.pos, hholds.mem] at htake
  refine ⟨mem, ?_, Shows.of_take t.no_nul_text htake⟩
  simp only [renderResult, hrun, hwrite]

/-! ### Reading the text back -/

/-- No name and no cell has a bar in it. -/
structure BarFree (t : StoredResult) : Prop where
  names : ∀ f ∈ t.fields, (124 : UInt8) ∉ f
  cells : ∀ row ∈ t.rows, ∀ bytes, some bytes ∈ row → (124 : UInt8) ∉ bytes

/-- The same number of fields and rows, columns of the same width, and in each place names
and cells that differ only in what is not printed. -/
structure PrintAlike (a b : StoredResult) : Prop where
  fields : a.fields.length = b.fields.length
  widths : ∀ j < a.fields.length, a.maxLength j = b.maxLength j
  names : ∀ j < a.fields.length, AlikeAt 32 (a.maxLength j + 2) (a.name j) (b.name j)
  cells : List.Forall₂ (fun r s => ∀ j < a.fields.length,
    strip 32 (cellText r j) = strip 32 (cellText s j)) a.rows b.rows

variable {a b : StoredResult}

theorem fetchLength_le (hrow : row ∈ t.rows) (j : ℕ) :
    fetchLength row j ≤ t.maxLength j :=
  le_max?_getD_of_mem (mem_map.mpr ⟨row, hrow, rfl⟩)

theorem cellText_length_le (hrow : row ∈ t.rows) (j : ℕ) :
    (cellText row j).length ≤ t.maxLength j := by
  calc (cellText row j).length
      ≤ (((cell row j).getD nullText).take (fetchLength row j)).length :=
        (takeWhile_sublist _).length_le
    _ ≤ fetchLength row j := length_take_le _ _
    _ ≤ t.maxLength j := fetchLength_le hrow j

theorem mem_of_mem_cellText {x : UInt8} {j : ℕ}
    (h : x ∈ cellText row j) : ∃ bytes, some bytes ∈ row ∧ x ∈ bytes := by
  have hcut := mem_of_mem_take ((takeWhile_sublist _).subset h)
  cases hcell : cell row j with
  | none => simp [cellText, fetchLength, hcell, cstr] at h
  | some bytes =>
    refine ⟨bytes, ?_, by rwa [hcell] at hcut⟩
    rw [cell, getD_eq_getElem?_getD] at hcell
    cases hj : row[j]? with
    | none => simp [hj] at hcell
    | some c =>
      rw [hj] at hcell
      exact hcell ▸ mem_of_getElem? hj

/-- Without bars in the table, every bar of the text leads a column or ends a line. -/
theorem lines_inj (ha : a.BarFree) (hb : b.BarFree) (h : a.text = b.text) : a.lines = b.lines := by
  have hbars : ∀ {t : StoredResult}, t.BarFree →
      ∀ body ∈ t.lines.flatMap (· ++ [[10]]), (124 : UInt8) ∉ body := by
    intro t ht body hbody
    obtain ⟨line, hline, hbody⟩ := mem_flatMap.mp hbody
    rcases mem_append.mp hbody with hbody | hbody
    · refine not_mem_body (by decide) (not_mem_name ht.names) ?_ line hline body hbody
      intro row hrow j hc
      obtain ⟨bytes, hbytes, hc⟩ := mem_of_mem_cellText hc
      exact ht.cells row hrow bytes hbytes hc
    · obtain rfl := mem_singleton.mp hbody
      decide
  have hends : ∀ (t : StoredResult), ∀ line ∈ t.lines, [(10 : UInt8)] ∉ line := by
    intro t line hline hc
    rcases mem_cons.mp hline with rfl | hline
    · obtain ⟨j, -, hj⟩ := mem_map.mp hc
      exact absurd (cons.inj hj).1 (by decide)
    · obtain ⟨row, -, rfl⟩ := mem_map.mp hline
      obtain ⟨j, -, hj⟩ := mem_map.mp hc
      exact absurd (cons.inj hj).1 (by decide)
  have hbodies := leading_inj _ (hbars ha) (hbars hb) h
  exact trailing_inj _ (hends a) (hends b) hbodies

theorem headerLine_eq_iff (hfields : a.fields.length = b.fields.length)
    (hwidths : ∀ j < a.fields.length, a.maxLength j = b.maxLength j) :
    a.headerLine = b.headerLine ↔
      ∀ j < a.fields.length, AlikeAt 32 (a.maxLength j + 2) (a.name j) (b.name j) := by
  unfold headerLine
  rw [← hfields, map_inj_left]
  simp only [mem_range, cons_inj_right]
  refine forall₂_congr fun j hj => ?_
  rw [← hwidths j hj, rightpad_eq_iff]

theorem rowLine_eq_iff {r s : List (Option Bytes)} (hr : r ∈ a.rows) (hs : s ∈ b.rows)
    (hfields : a.fields.length = b.fields.length) :
    a.rowLine r = b.rowLine s ↔ ∀ j < a.fields.length,
      a.maxLength j = b.maxLength j ∧ strip 32 (cellText r j) = strip 32 (cellText s j) := by
  unfold rowLine
  rw [← hfields, map_inj_left]
  simp only [mem_range, cons_inj_right, append_cancel_right_eq]
  refine forall₂_congr fun j hj => ?_
  have hra := cellText_length_le hr j
  have hsb := cellText_length_le hs j
  refine ⟨fun h => ?_, fun ⟨hwidth, hstrip⟩ => ?_⟩
  · -- every column is as wide as its padding
    have hwidth : a.maxLength j = b.maxLength j := by
      have hlen := congrArg length h
      rw [length_rightpad, length_rightpad] at hlen
      omega
    rw [← hwidth, rightpad_eq_iff, alikeAt_iff (by omega) (by omega)] at h
    exact ⟨hwidth, h⟩
  · rw [← hwidth, rightpad_eq_iff, alikeAt_iff (by omega) (by omega)]
    exact hstrip

theorem lines_eq_iff : a.lines = b.lines ↔ PrintAlike a b := by
  rw [lines, lines, cons.injEq, Delimited.map_eq_map_iff]
  refine ⟨fun ⟨hheader, hrows⟩ => ?_, fun h => ⟨?_, ?_⟩⟩
  · -- The header tells the number of fields; the widths show only where there is a row.
    have hfields : a.fields.length = b.fields.length := by
      simpa [headerLine] using congrArg length hheader
    have hcells := (forall₂_congr_mem fun r hr s hs => rowLine_eq_iff hr hs hfields).mp hrows
    have hwidths : ∀ j < a.fields.length, a.maxLength j = b.maxLength j := by
      intro j hj
      cases ha : a.rows with
      | nil =>
        rw [ha, forall₂_nil_left_iff] at hrows
        simp [maxLength, ha, hrows]
      | cons r rs =>
        rw [ha] at hcells
        obtain ⟨s, ss, hfirst, -⟩ := forall₂_cons_left_iff.mp hcells
        exact (hfirst j hj).1
    exact ⟨hfields, hwidths, (headerLine_eq_iff hfields hwidths).mp hheader,
      hcells.imp fun r s h j hj => (h j hj).2⟩
  · exact (headerLine_eq_iff h.fields h.widths).mpr h.names
  · refine (forall₂_congr_mem fun r hr s hs => rowLine_eq_iff hr hs h.fields).mpr ?_
    exact h.cells.imp fun r s hcells j hj => ⟨h.widths j hj, hcells j hj⟩

theorem text_eq_of_printAlike (h : PrintAlike a b) : a.text = b.text := by
  rw [text, text, lines_eq_iff.mpr h]

theorem printAlike_of_text_eq (ha : a.BarFree) (hb : b.BarFree) (h : a.text = b.text) :
    PrintAlike a b :=
  lines_eq_iff.mp (lines_inj ha hb h)

end StoredResult

/-! ### The call -/

section Query

variable {args : MysqlArgs} {heap : Fin (n + 1) → ℕ → UInt8} {reconnects : Bool} {c : Conn n}
  {query : Bytes} {len : ℕ} {rs : RsData Empty} {t : Fin (n + 1) → StoredResult}

/-- The buffer of instance `i` holds the text of its result set. -/
def Rendered (t : Fin (n + 1) → StoredResult) (v : QueryVars n) (i : Fin (n + 1)) : Prop :=
  ∃ mem, v.buffers i = some mem ∧ Shows mem (t i).text

theorem queryInstance_result (hsel : isSelect query = true) (v : QueryVars n) (i : Fin (n + 1))
    {t : StoredResult} {mem : Bytes} (hmem : renderResult (heap i) t = .ok mem) :
    ∃ v', queryInstance args heap reconnects query len v i (.result t) = .ok (v', none) ∧
      v'.buffers = update v.buffers i (some mem) := by
  have hinto : ∀ u : QueryVars n, renderInto heap (isSelect query) u i t
      = .ok { u with buffers := update u.buffers i (some mem) } := by
    intro u
    rw [renderInto, if_pos hsel, hmem]
    rfl
  rw [queryInstance, hinto]
  by_cases hi : i = 0
  · exact ⟨_, if_pos hi, rfl⟩
  · exact ⟨_, if_neg hi, rfl⟩

theorem queryLoop_result (hsel : isSelect query = true) {mem : Fin (n + 1) → Bytes}
    (hmem : ∀ i, renderResult (heap i) (t i) = .ok (mem i)) (is : List (Fin (n + 1))) :
    ∀ v : QueryVars n, ∃ v',
      queryLoop args heap reconnects query len (fun i => .result (t i)) is v = .ok (v', none) ∧
      (∀ j ∈ is, v'.buffers j = some (mem j)) ∧ ∀ j ∉ is, v'.buffers j = v.buffers j := by
  induction is with
  | nil => exact fun v => ⟨v, rfl, nofun, fun j _ => rfl⟩
  | cons i is ih =>
    intro v
    obtain ⟨v₁, hfirst, hbuffers⟩ := queryInstance_result hsel v i (hmem i)
    obtain ⟨v', hrest, hfilled, hkept⟩ := ih v₁
    refine ⟨v', ?_, forall_mem_cons.mpr ⟨?_, hfilled⟩, fun j hj => ?_⟩
    · rw [queryLoop, hfirst]
      exact hrest
    · by_cases hi : i ∈ is
      · exact hfilled i hi
      · rw [hkept i hi, hbuffers, update_self]
    · rw [mem_cons, not_or] at hj
      rw [hkept j hj.2, hbuffers, update_of_ne hj.1]

theorem queryLoop_renders (hsel : isSelect query = true) (hfits : ∀ i, (t i).Fits)
    (v : QueryVars n) :
    ∃ v', queryLoop args heap reconnects query len (fun i => .result (t i))
        (finRange (n + 1)) v = .ok (v', none) ∧ ∀ i, Rendered t v' i := by
  choose mem hmem hshow using fun i => StoredResult.renderResult_shows (heap i) (hfits i)
  obtain ⟨v', hloop, hfilled, -⟩ := queryLoop_result hsel hmem (finRange (n + 1)) v
  exact ⟨v', hloop, fun i => ⟨mem i, hfilled i (mem_finRange i), hshow i⟩⟩

theorem mysqlDrvQuery_reports (hdry : args.dryRun = false) (hsel : isSelect query = true)
    (hfits : ∀ i, (t i).Fits) :
    ∃ c' r, mysqlDrvQuery args heap reconnects c query len (fun i => .result (t i)) rs
        = .ok (c', r) ∧
      ∀ i, (∃ m ∈ r.mismatches, m.index = i) ↔ (t i).text ≠ (t 0).text := by
  obtain ⟨v, hloop, hv⟩ := queryLoop_renders hsel hfits
    { conn := { c with sqlErrno := 0 }, rs := rs, buffers := fun _ => none }
  obtain ⟨ms, hms, hindex⟩ := compareTexts_reports v.buffers hv
  refine ⟨v.conn, { rc := DbError.none.code, rs := v.rs, mismatches := ms }, ?_, hindex⟩
  rw [mysqlDrvQuery, hdry, hloop]
  simp only [hsel, hms, bind, Except.bind]
  rfl

/-- The call returns, and what it reports are the instances whose result set is not that of
the first. -/
def ReportsDifferences (args : MysqlArgs) (heap : Fin (n + 1) → ℕ → UInt8) (reconnects : Bool)
    (c : Conn n) (query : Bytes) (len : ℕ) (t : Fin (n + 1) → StoredResult)
    (rs : RsData Empty) : Prop :=
  ∃ c' r, mysqlDrvQuery args heap reconnects c query len (fun i => .result (t i)) rs
      = .ok (c', r) ∧
    ∀ i, (∃ m ∈ r.mismatches, m.index = i) ↔ t i ≠ t ⟨0, n.succ_pos⟩

/-- **What a text comparison finds.**  Where a query reports the instances that differ and no
others, no result set that is not the first one is printed like it.  Without bars in names
and cells that is enough, for all queries whose result sets fit their buffers. -/
theorem query_reports_differences_iff (hdry : args.dryRun = false)
    (hsel : isSelect query = true) (hfits : ∀ i, (t i).Fits) :
    (ReportsDifferences args heap reconnects c query len t rs →
      ∀ i, t i = t 0 ∨ ¬(t i).PrintAlike (t 0)) ∧
    ((∀ i, (t i).BarFree) → (∀ i, t i = t 0 ∨ ¬(t i).PrintAlike (t 0)) →
      ReportsDifferences args heap reconnects c query len t rs) := by
  refine ⟨?_, fun hbars hcond => ?_⟩
  · rintro ⟨c', r, hcall, hdiff⟩ i
    obtain ⟨c₁, r₁, hcall₁, htext⟩ := mysqlDrvQuery_reports hdry hsel hfits
    obtain ⟨rfl, rfl⟩ := Prod.mk.inj (Except.ok.inj (hcall.symm.trans hcall₁))
    by_contra hc
    rw [not_or, not_not] at hc
    exact (htext i).mp ((hdiff i).mpr hc.1) (StoredResult.text_eq_of_printAlike hc.2)
  · obtain ⟨c', r, hcall, htext⟩ := mysqlDrvQuery_reports hdry hsel hfits
    refine ⟨c', r, hcall, fun i => (htext i).trans (not_congr ⟨fun h => ?_, congrArg _⟩)⟩
    have halike := StoredResult.printAlike_of_text_eq (hbars i) (hbars 0) h
    exact (hcond i).resolve_right fun hc => hc halike

end Query

theorem names_a : ∀ name ∈ ([[97]] : List Bytes), (0 : UInt8) ∉ name := by decide

/-- One row with one field, `a`. -/
def oneCell (value : Option Bytes) : StoredResult where
  fields := [[97]]
  rows := [[value]]
  names := names_a
  width := by simp

/-- `SELECT a` on two instances. -/
def selectCells (first second : Option Bytes) (i : Fin 2) : StoredResult :=
  oneCell (if i.val = 0 then first else second)

def selectA : Bytes := [83, 69, 76, 69, 67, 84, 32, 97]

theorem other_letter_is_reported :
    ReportsDifferences strictArgs (Env.blank 1).memory false (Conn.init 1) selectA 8
      (selectCells (some [120]) (some [121])) (Env.blank 1).rs := by
  have hfits : ∀ i, (selectCells (some [120]) (some [121]) i).Fits := by decide
  refine (query_reports_differences_iff rfl rfl hfits).2 ?_ ?_
  · refine Fin.forall_fin_two.mpr ⟨⟨by decide, ?_⟩, ⟨by decide, ?_⟩⟩
    all_goals simp [selectCells, oneCell]
  · refine Fin.forall_fin_two.mpr ⟨.inl rfl, .inr fun h => ?_⟩
    exact absurd (StoredResult.text_eq_of_printAlike h) (by decide)

/-- `NULL` on one instance and an empty string on the other: both are printed as blanks. -/
theorem null_for_empty_string_is_not_reported :
    ∃ c' r, mysqlDrvQuery strictArgs (Env.blank 1).memory false (Conn.init 1) selectA 8
        (fun i => .result (selectCells (some []) none i)) (Env.blank 1).rs = .ok (c', r) ∧
      r.mismatches = [] ∧ selectCells (some []) none 1 ≠ selectCells (some []) none 0 := by
  have hdry : strictArgs.dryRun = false := rfl
  have hsel : isSelect selectA = true := by decide
  have hfits : ∀ i, (selectCells (some []) none i).Fits := by decide
  have hsame : ∀ i, (selectCells (some []) none i).text = (selectCells (some []) none 0).text :=
    Fin.forall_fin_two.mpr ⟨rfl, by decide⟩
  obtain ⟨c', r, hcall, htext⟩ := mysqlDrvQuery_reports hdry hsel hfits
  exact ⟨c', r, hcall, no_reports htext hsame, by decide⟩

end Sysbench.Compare
