/-
What the compare driver sees of the results of a prepared statement.

Each cell is printed behind its name, and behind its value stands its length.  A number is
bound as four bytes of memory and printed like a string, so only up to its first zero byte:
`StmtCell.shown` is what is left of a cell.  Where the text fits its buffer, two results have the
same text if and only if they have the same names and the same is shown of their cells, as long
as no string longer than four bytes has a zero byte in it, and as the names are the same anyway or
have no `: ` in them, by which a name could be taken for a name and a value.

The text is read back from its end.  The length of a value stands behind it, in digits, and
tells where the value begins unless a zero byte has cut it; a cut value may be off by at
most four bytes then, and no such shift of the name in front leads to a place where a row
or a cell can end.  Names that differ are told apart by the two blanks in front of them, which
nothing but a name or a value has.
-/
import Sysbench.Proofs.CompareText

namespace Sysbench.Compare

open List Function CMemory Decimal Delimited Runs

variable {n : ℕ} {i : Fin (n + 1)} {mem : Bytes}

/-! ### Numbers -/

variable {x y : Bytes} {k l : ℕ}

/-- A number behind a blank is read back from the right. -/
theorem append_decimal_inj (h : x ++ [32] ++ decimal k = y ++ [32] ++ decimal l) :
    x = y ∧ k = l := by
  have hblank : ∀ z : Bytes, ∀ b ∈ (z ++ [32]).getLast?, ¬IsDigit b := by
    intro z b hb
    rw [getLast?_concat] at hb
    obtain rfl : 32 = b := Option.some.inj hb
    exact fun hc => absurd hc.1 (by decide)
  obtain ⟨hfront, hdigits⟩ := append_run_inj (isDigit_decimal k) (isDigit_decimal l)
    (hblank x) (hblank y) h
  exact ⟨append_cancel_right hfront, decimal_inj hdigits⟩

/-! ### Where a cell can begin -/

/-- No two blanks side by side. -/
def NoGap (e : Bytes) : Prop := e.IsChain fun a b => a ≠ 32 ∨ b ≠ 32

theorem NoGap.append {d e : Bytes} (hd : NoGap d) (he : NoGap e) (h : e.head? ≠ some 32) :
    NoGap (d ++ e) :=
  IsChain.append hd he fun _ _ _ hb => .inr fun hc => h (hc ▸ hb)

theorem noGap_decimal (k : ℕ) : NoGap (decimal k) := by
  refine Pairwise.isChain (pairwise_of_forall_mem_list fun a ha b _ => .inl ?_)
  rintro rfl
  exact absurd (isDigit_decimal k _ ha) (by decide)

theorem head_decimal (k : ℕ) : (decimal k).head? ≠ some 32 := by
  intro hc
  exact absurd (isDigit_decimal k _ (mem_of_mem_head? hc)) (by decide)

/-- No name begins behind the last `: ` of the text, or in a text without it. -/
def Closed (text : Bytes) : Prop :=
  ∃ p e, text = p ++ e ∧ (p = [] ∨ [58, 32] <:+ p) ∧ NoGap e

theorem Closed.append {e : Bytes} (hx : Closed x) (he : NoGap e) (h : e.head? ≠ some 32) :
    Closed (x ++ e) := by
  obtain ⟨p, d, rfl, hp, hd⟩ := hx
  exact ⟨p, d ++ e, append_assoc p d e, hp, hd.append he h⟩

/-- The text ends like a row's first line or like a cell; here it is read from its end. -/
structure Seam (text : Bytes) : Prop where
  ends : (∃ d, IsDigit d ∧ [10, 58, d] <+: text.reverse) ∨
    [32, 41] <+: text.reverse ∨ [32, 76] <+: text.reverse
  closed : Closed text

/-- The blank in front of a name is not the one behind the cell before. -/
theorem Seam.not_blank (hx : Seam x) : ¬Seam (x ++ [32]) := by
  intro hxu
  cases x using reverseRecOn with
  | nil => simpa using hx.ends
  | append_singleton y b =>
    have hend : 41 = b ∨ 76 = b := by simpa using hxu.ends
    rcases hend with rfl | rfl <;> simpa using hx.ends

/-- The name in front of a cell. -/
def label (name : Bytes) : Bytes := [32, 32] ++ name ++ [58, 32]

variable {name name' v w : Bytes}

/-- The name cannot be taken for a name and a value. -/
def PlainName (name : Bytes) : Prop := ¬[58, 32] <:+: name

/-- A `: ` in front of a plain name is in front of the seam at which the name begins. -/
theorem colon_within_seam {z r : Bytes} (hx : Seam x) (hname : PlainName name)
    (h : x ++ ([32, 32] ++ name) = z ++ [58, 32] ++ r) :
    ∃ q, r = q ++ ([32, 32] ++ name) := by
  rcases append_eq_append_iff.mp h with ⟨q, hq, hr⟩ | ⟨q, -, hr⟩
  · match q with
    | [] => exact ⟨[], hr.symm⟩
    | [a] =>
      -- `x` would end in the colon
      obtain ⟨rfl, hx'⟩ : 32 = a ∧ _ := by simpa using congrArg reverse hq
      have hends := hx.ends
      rw [← hx'] at hends
      simp at hends
    | a :: b :: q =>
      have hsuffix : [58, 32] <:+ a :: b :: q :=
        suffix_of_suffix_length_le ⟨z, rfl⟩ ⟨x, hq.symm⟩ (by simp)
      have hinfix : [58, 32] <:+: [32, 32] ++ name := hr ▸ hsuffix.isInfix.trans ⟨[], r, rfl⟩
      exact absurd (by simpa [infix_cons_iff] using hinfix) hname
  · exact ⟨q, hr⟩

/-- Two blanks behind a seam are followed by a `: ` before the next seam, and not right before
it. -/
theorem shift_eq_nil {u r s : Bytes} (hx : Seam x) (hxu : Seam (x ++ u))
    (h : [32, 32] ++ r = u ++ s)
    (hu : ∀ u', u = [32, 32] ++ u' → PlainName u' ∨ [58, 32] <:+ u') : u = [] := by
  match u with
  | [] => rfl
  | [a] =>
    obtain ⟨rfl, -⟩ : 32 = a ∧ _ := cons.inj h
    exact absurd hxu hx.not_blank
  | a :: b :: u =>
    obtain ⟨rfl, hb⟩ : 32 = a ∧ _ := cons.inj h
    obtain ⟨rfl, -⟩ : 32 = b ∧ _ := cons.inj hb
    rcases hu u rfl with hplain | ⟨z, rfl⟩
    · have hgap : ∀ q : Bytes, ¬NoGap (q ++ 32 :: 32 :: u) := fun q hc => by
        simpa using isChain_append_cons_cons.mp hc
      obtain ⟨p, e, htext, rfl | ⟨z, rfl⟩, he⟩ := hxu.closed
      · exact absurd (htext ▸ he) (hgap x)
      · obtain ⟨q, rfl⟩ := colon_within_seam hx hplain htext
        exact absurd he (hgap q)
    · simpa using hxu.ends

theorem seam_eq {u : Bytes} (hx : Seam x) (hxu : Seam (x ++ u))
    (hname : name = name' ∨ PlainName name')
    (hlen : v.length = w.length ∨ v.length ≤ 4 ∧ w.length ≤ 4)
    (h : label name' ++ w = u ++ (label name ++ v)) : u = [] := by
  refine shift_eq_nil hx hxu (r := name' ++ [58, 32] ++ w) (by simpa [label] using h) ?_
  rintro u rfl
  have hlens := congrArg length h
  simp only [label, length_append, length_cons, length_nil] at hlens
  rcases hname with rfl | hname
  · by_cases hc : [58, 32] <:+: u
    · have hshort := hc.length_le
      exact .inr (hc.eq_of_length (by simp at hshort ⊢; omega) ▸ suffix_rfl)
    · exact .inl hc
  · have hplain : PlainName (name' ++ [58]) := by
      refine fun hc => (infix_concat_iff.mp hc).elim ?_ hname
      rintro ⟨z, hz⟩
      simpa using congrArg reverse hz
    have hfront : name' ++ [58] ++ (32 :: w) = u ++ (label name ++ v) := by
      simpa [label] using h
    rcases append_eq_append_iff.mp hfront with ⟨q, rfl, hw⟩ | ⟨q, hq, -⟩
    · match q with
      | [] => exact .inl (by rwa [append_nil])
      | a :: q =>
        -- the value would hold the whole name, so both are empty
        obtain ⟨rfl, -⟩ : 32 = a ∧ _ := cons.inj hw
        simp only [length_append, length_cons] at hlens
        obtain rfl : q = [] := length_eq_zero_iff.mp (by omega)
        exact .inr ⟨name', by simp⟩
    · exact .inl fun hc => hplain (hc.trans ⟨[], q, hq.symm⟩)

/-- The first `: ` ends a plain name. -/
theorem plainName_append {q : Bytes} (hname : PlainName (name ++ q))
    (h : [58, 32] ++ v = q ++ ([58, 32] ++ w)) : q = [] := by
  match q with
  | [] => rfl
  | [a] => simp at h
  | a :: b :: q =>
    obtain ⟨rfl, hb⟩ : 58 = a ∧ _ := cons.inj h
    obtain ⟨rfl, -⟩ : 32 = b ∧ _ := cons.inj hb
    exact absurd ⟨name, q, by simp⟩ hname

/-- Between a seam and its value, a name can be taken out where the value is known up to a few
bytes. -/
theorem label_inj (hx : Seam x) (hy : Seam y)
    (hname : name = name' ∨ PlainName name ∧ PlainName name')
    (hlen : v.length = w.length ∨ v.length ≤ 4 ∧ w.length ≤ 4)
    (h : x ++ (label name ++ v) = y ++ (label name' ++ w)) : x = y ∧ name = name' ∧ v = w := by
  obtain rfl : x = y := by
    rcases append_eq_append_iff.mp h with ⟨u, rfl, hu⟩ | ⟨u, rfl, hu⟩
    · rw [seam_eq hx hy (hname.imp Eq.symm And.left) (by omega) hu, append_nil]
    · rw [seam_eq hy hx (hname.imp_right And.right) hlen hu, append_nil]
  rw [append_cancel_left_eq] at h
  obtain rfl : name = name' := by
    rcases hname with hname | ⟨hname, hname'⟩
    · exact hname
    · simp only [label, append_assoc, append_cancel_left_eq] at h
      rcases append_eq_append_iff.mp h with ⟨q, rfl, hq⟩ | ⟨q, rfl, hq⟩
      · rw [plainName_append hname' hq, append_nil]
      · rw [plainName_append hname hq, append_nil]
  exact ⟨rfl, rfl, append_cancel_left h⟩

/-! ### Cells -/

namespace StmtCell

/-- What is printed of a cell: nothing for NULL, otherwise its bytes up to the first zero byte
and its length. -/
def shown (c : StmtCell) : Option (Bytes × ℕ) :=
  if c = .null then none else some (cstr c.buffer, c.buffer.length)

/-- The cell is printed whole, or is short. -/
def Readable (c : StmtCell) : Prop := 0 ∉ c.buffer ∨ c.buffer.length ≤ 4

theorem readable_long (value : UInt32) : (long value).Readable := .inr (Nat.le_refl 4)

variable {c d : StmtCell}

theorem length_cstr_buffer (hc : c.Readable) (hd : d.Readable)
    (h : c.buffer.length = d.buffer.length) :
    (cstr c.buffer).length = (cstr d.buffer).length ∨
      (cstr c.buffer).length ≤ 4 ∧ (cstr d.buffer).length ≤ 4 := by
  have hcut : ∀ e : StmtCell, (cstr e.buffer).length ≤ e.buffer.length := fun e =>
    (takeWhile_sublist _).length_le
  have hc' := hcut c
  have hd' := hcut d
  rcases hc with hc | hc
  · rcases hd with hd | hd
    · rw [cstr_of_no_nul hc, cstr_of_no_nul hd]
      exact .inl h
    · omega
  · omega

end StmtCell

/-- ` (length:` -/
def lengthText : Bytes := [32, 40, 108, 101, 110, 103, 116, 104, 58]

/-- A cell behind its name, from what is shown of it. -/
def shownText : Option (Bytes × ℕ) → Bytes
  | none => nullText ++ [32]
  | some (value, length) => value ++ lengthText ++ [32] ++ decimal length ++ [41, 32]

theorem cellPiece_eq (name : Bytes) (c : StmtCell) :
    cellPiece name c = label name ++ shownText c.shown := by
  unfold cellPiece StmtCell.shown
  by_cases hc : c = .null
  · rw [if_pos hc, if_pos hc]
    rfl
  · rw [if_neg hc, if_neg hc]
    simp [label, shownText, lengthText]

theorem no_nul_shownText (c : StmtCell) : (0 : UInt8) ∉ shownText c.shown := by
  have hvalue : (0 : UInt8) ∉ cstr c.buffer := fun hc => by simpa using mem_takeWhile_imp hc
  unfold StmtCell.shown
  by_cases hc : c = .null
  · rw [if_pos hc]
    decide
  · rw [if_neg hc]
    simp [shownText, lengthText, hvalue, no_nul_decimal]

theorem seam_shownText (x name : Bytes) (s : Option (Bytes × ℕ)) :
    Seam (x ++ label name ++ shownText s) := by
  cases s with
  | none =>
    refine ⟨.inr (.inr (by simp [shownText, nullText])), x ++ label name, _, rfl, .inr ?_, ?_⟩
    · exact ⟨x ++ ([32, 32] ++ name), by simp [label]⟩
    · simp [NoGap, shownText, nullText]
  | some s =>
    refine ⟨.inr (.inl (by simp [shownText])), x ++ label name ++ (s.1 ++ lengthText ++ [32]),
      decimal s.2 ++ [41, 32], by simp [shownText], .inr ?_, ?_⟩
    · exact ⟨x ++ label name ++ (s.1 ++ lengthText.dropLast), by simp [lengthText]⟩
    · exact (noGap_decimal s.2).append (by simp [NoGap]) (by simp)

theorem null_ne_value (x y : Bytes) (s : Bytes × ℕ) :
    x ++ shownText none ≠ y ++ shownText (some s) := by
  intro h
  simpa [shownText, nullText] using congrArg reverse h

theorem value_inj (h : x ++ shownText (some (v, k)) = y ++ shownText (some (w, l))) :
    x ++ v = y ++ w ∧ k = l := by
  simp only [shownText, ← append_assoc, append_cancel_right_eq] at h
  obtain ⟨hfront, hlen⟩ := append_decimal_inj h
  exact ⟨append_cancel_right hfront, hlen⟩

theorem cellPiece_inj {c d : StmtCell} (hx : Seam x) (hy : Seam y)
    (hname : name = name' ∨ PlainName name ∧ PlainName name') (hc : c.Readable)
    (hd : d.Readable) (h : x ++ cellPiece name c = y ++ cellPiece name' d) :
    x = y ∧ name = name' ∧ c.shown = d.shown := by
  rw [cellPiece_eq, cellPiece_eq] at h
  unfold StmtCell.shown at h ⊢
  by_cases hcn : c = .null
  · by_cases hdn : d = .null
    · rw [if_pos hcn, if_pos hdn] at h ⊢
      obtain ⟨hxy, hnames, -⟩ := label_inj hx hy hname (.inl rfl) h
      exact ⟨hxy, hnames, rfl⟩
    · rw [if_pos hcn, if_neg hdn, ← append_assoc, ← append_assoc] at h
      exact absurd h (null_ne_value _ _ _)
  · by_cases hdn : d = .null
    · rw [if_neg hcn, if_pos hdn, ← append_assoc, ← append_assoc] at h
      exact absurd h.symm (null_ne_value _ _ _)
    · rw [if_neg hcn, if_neg hdn] at h ⊢
      rw [← append_assoc, ← append_assoc] at h
      -- The length stands behind the value, so it is known before the value is.
      obtain ⟨hfront, hlen⟩ := value_inj h
      rw [append_assoc, append_assoc] at hfront
      obtain ⟨hxy, hnames, hvalue⟩ :=
        label_inj hx hy hname (StmtCell.length_cstr_buffer hc hd hlen) hfront
      exact ⟨hxy, hnames, by rw [hvalue, hlen]⟩

/-! ### Rows -/

/-- `rows 1:` and a line feed. -/
def rowHead (k : ℕ) : Bytes := [114, 111, 119, 115] ++ [32] ++ decimal k ++ [58, 10]

theorem seam_rowHead (hx : Closed x) (k : ℕ) : Seam (x ++ rowHead k) := by
  refine ⟨.inl ⟨UInt8.ofNat (48 + k % 10), ?_, ?_⟩, hx.append ?_ (by simp [rowHead])⟩
  · refine isDigit_decimal k _ ?_
    rw [decimal_eq]
    simp
  · rw [rowHead, decimal_eq]
    simp
  · refine NoGap.append (NoGap.append ?_ (noGap_decimal k) (head_decimal k)) ?_ ?_
    all_goals simp [NoGap]

theorem rowHead_inj (h : x ++ rowHead k = y ++ rowHead l) : x = y ∧ k = l := by
  simp only [rowHead, ← append_assoc, append_cancel_right_eq] at h
  obtain ⟨hfront, hkl⟩ := append_decimal_inj h
  exact ⟨append_cancel_right hfront, hkl⟩

/-- The cells of a row behind their names. -/
def cellsText (cells : List (Bytes × StmtCell)) : Bytes :=
  cells.flatMap fun f => cellPiece f.1 f.2

theorem cellsText_concat (cells : List (Bytes × StmtCell)) (name : Bytes) (c : StmtCell) :
    cellsText (cells ++ [(name, c)]) = cellsText cells ++ cellPiece name c := by
  rw [cellsText, flatMap_append, flatMap_singleton]
  rfl

theorem seam_cellsText (hx : Seam x) (cells : List (Bytes × StmtCell)) :
    Seam (x ++ cellsText cells) := by
  cases cells using reverseRecOn with
  | nil => rwa [cellsText, flatMap_nil, append_nil]
  | append_singleton cells f =>
    rw [cellsText_concat, cellPiece_eq, ← append_assoc, ← append_assoc]
    exact seam_shownText _ _ _

/-- The names are the same, or none of them can be taken for more than a name. -/
def TellApart (names names' : List Bytes) : Prop :=
  names = names' ∨ (∀ a ∈ names, PlainName a) ∧ ∀ a ∈ names', PlainName a

theorem TellApart.of_concat {names names' : List Bytes}
    (h : TellApart (names ++ [name]) (names' ++ [name'])) :
    TellApart names names' ∧ (name = name' ∨ PlainName name ∧ PlainName name') := by
  rcases h with h | ⟨hnames, hnames'⟩
  · obtain ⟨hinit, hlast⟩ := append_inj' h rfl
    exact ⟨.inl hinit, .inl (singleton_inj.mp hlast)⟩
  · rw [forall_mem_append] at hnames hnames'
    exact ⟨.inr ⟨hnames.1, hnames'.1⟩,
      .inr ⟨hnames.2 name mem_cons_self, hnames'.2 name' mem_cons_self⟩⟩

theorem append_cellsText_nil (x : Bytes) : x ++ cellsText [] = x := append_nil x

theorem rowHead_ne_cells (x y : Bytes) (k : ℕ) (cells : List (Bytes × StmtCell))
    (f : Bytes × StmtCell) : x ++ rowHead k ≠ y ++ cellsText (cells ++ [f]) := by
  intro h
  rw [cellsText_concat, cellPiece_eq] at h
  cases hf : f.2.shown with
  | none | some s => simpa [hf, rowHead, shownText] using congrArg reverse h

theorem cellsText_inj (hx : Closed x) (hy : Closed y) (cells : List (Bytes × StmtCell)) :
    ∀ {cells' : List (Bytes × StmtCell)},
      TellApart (cells.map Prod.fst) (cells'.map Prod.fst) →
      (∀ f ∈ cells, f.2.Readable) → (∀ f ∈ cells', f.2.Readable) →
      x ++ rowHead k ++ cellsText cells = y ++ rowHead l ++ cellsText cells' →
      x ++ rowHead k = y ++ rowHead l ∧
        cells.map (Prod.map id StmtCell.shown) = cells'.map (Prod.map id StmtCell.shown) := by
  induction cells using reverseRecOn with
  | nil =>
    intro cells' _ _ _ h
    cases cells' using reverseRecOn with
    | nil => exact ⟨append_cancel_right h, rfl⟩
    | append_singleton cells' g =>
      rw [append_cellsText_nil] at h
      exact absurd h (rowHead_ne_cells _ _ _ _ _)
  | append_singleton cells f ih =>
    intro cells' hnames hread hread' h
    cases cells' using reverseRecOn with
    | nil =>
      rw [append_cellsText_nil] at h
      exact absurd h.symm (rowHead_ne_cells _ _ _ _ _)
    | append_singleton cells' g =>
      rw [map_append, map_append] at hnames
      rw [forall_mem_append, forall_mem_singleton] at hread hread'
      obtain ⟨hnames, hname⟩ := hnames.of_concat
      rw [cellsText_concat, cellsText_concat, ← append_assoc, ← append_assoc] at h
      obtain ⟨hrest, hlast, hshown⟩ := cellPiece_inj (seam_cellsText (seam_rowHead hx k) _)
        (seam_cellsText (seam_rowHead hy l) _) hname hread.2 hread'.2 h
      obtain ⟨hhead, hcells⟩ := ih hnames hread.1 hread'.1 hrest
      exact ⟨hhead, by simp [hcells, Prod.map, hlast, hshown]⟩

/-- A row as it is printed. -/
def rowText (names : List Bytes) (k : ℕ) (row : List StmtCell) : Bytes :=
  rowHead k ++ cellsText (names.zip row) ++ [10]

/-- The rows, numbered from 1. -/
def rowsText (names : List Bytes) (rows : List (List StmtCell)) : Bytes :=
  (rows.zipIdx 1).flatMap fun row => rowText names row.2 row.1

theorem rowsText_concat (names : List Bytes) (rows : List (List StmtCell)) (row : List StmtCell) :
    rowsText names (rows ++ [row])
      = rowsText names rows ++ rowText names (rows.length + 1) row := by
  rw [rowsText, zipIdx_append, Nat.add_comm]
  simp [rowsText]

theorem closed_rowsText (names : List Bytes) (rows : List (List StmtCell)) :
    Closed (rowsText names rows) := by
  induction rows using reverseRecOn with
  | nil => exact ⟨[], [], rfl, .inl rfl, .nil⟩
  | append_singleton rows row ih =>
    rw [rowsText_concat, rowText, ← append_assoc, ← append_assoc]
    exact (seam_cellsText (seam_rowHead ih _) _).closed.append (.singleton 10) (by simp)

theorem rowsText_inj {names names' : List Bytes} (hnames : TellApart names names')
    (rows : List (List StmtCell)) :
    ∀ {rows' : List (List StmtCell)},
      (∀ row ∈ rows, row.length = names.length ∧ ∀ c ∈ row, c.Readable) →
      (∀ row ∈ rows', row.length = names'.length ∧ ∀ c ∈ row, c.Readable) →
      rowsText names rows = rowsText names' rows' →
      rows.map (map StmtCell.shown) = rows'.map (map StmtCell.shown) ∧
        (rows ≠ [] → names = names') := by
  have hne : ∀ (names : List Bytes) (rows : List (List StmtCell)) (row : List StmtCell),
      rowsText names (rows ++ [row]) ≠ [] := by
    intro names rows row
    rw [rowsText_concat, rowText]
    simp
  induction rows using reverseRecOn with
  | nil =>
    intro rows' _ _ h
    cases rows' using reverseRecOn with
    | nil => exact ⟨rfl, fun hc => absurd rfl hc⟩
    | append_singleton rows' row' => exact absurd h.symm (hne names' rows' row')
  | append_singleton rows row ih =>
    intro rows' hrows hrows' h
    cases rows' using reverseRecOn with
    | nil => exact absurd h (hne names rows row)
    | append_singleton rows' row' =>
      -- The last cells first, then the last row's number, then the rows in front of it.
      rw [forall_mem_append, forall_mem_singleton] at hrows hrows'
      obtain ⟨hlen, hread⟩ := hrows.2
      obtain ⟨hlen', hread'⟩ := hrows'.2
      rw [rowsText_concat, rowsText_concat, rowText, rowText] at h
      simp only [← append_assoc, append_cancel_right_eq] at h
      have hfst := map_fst_zip hlen.ge
      have hfst' := map_fst_zip hlen'.ge
      obtain ⟨hhead, hcells⟩ := cellsText_inj (closed_rowsText names rows)
        (closed_rowsText names' rows') _ (by rwa [hfst, hfst'])
        (fun f hf => hread _ (of_mem_zip hf).2) (fun f hf => hread' _ (of_mem_zip hf).2) h
      rw [← zip_map_right, ← zip_map_right] at hcells
      have hunzip := congrArg unzip hcells
      rw [unzip_zip (by simp [hlen]), unzip_zip (by simp [hlen'])] at hunzip
      obtain ⟨hsame, hshown⟩ := Prod.mk.inj hunzip
      obtain ⟨hrest, -⟩ := ih hrows.1 hrows'.1 (rowHead_inj hhead).1
      exact ⟨by simp [hrest, hshown], fun _ => hsame⟩

/-! ### Results -/

namespace StmtResult

variable {t a b : StmtResult} {rsBuf : Bytes}

def columns (t : StmtResult) : List Bytes := t.fields.map Prod.fst

/-- The text printed, were there always room. -/
def text (t : StmtResult) : Bytes := rowsText t.columns t.rows

theorem printed_stmtScript (t : StmtResult) : Cmd.printed t.stmtScript = t.text := by
  have hcells : ∀ cells : List (Bytes × StmtCell),
      Cmd.printed (cells.map fun f => .print (cellPiece f.1 f.2)) = cellsText cells := by
    intro cells
    induction cells with
    | nil => rfl
    | cons f cells ih =>
      rw [map_cons, Cmd.printed, ih]
      rfl
  rw [stmtScript, Cmd.printed_flatMap]
  refine flatMap_congr fun row _ => ?_
  rw [rowScript, Cmd.printed_append, Cmd.printed_append, hcells]
  simp [Cmd.printed, rowText, rowHead, columns]

/-- There is a row, all columns have a type the driver knows, and the text fits. -/
structure Printable (t : StmtResult) : Prop where
  rows : t.rows ≠ []
  types : ∀ f ∈ t.fields, f.2 ≠ .other
  fits : Cmd.fits t.stmtScript outputBufferSize 0 = true

theorem no_other_of_types (htypes : ∀ f ∈ t.fields, f.2 ≠ .other) :
    (t.rows.any fun row => row.contains .other) = false := by
  rw [any_eq_false]
  intro row hrow hc
  obtain ⟨⟨name, type⟩, hf, htype⟩ :=
    exists_left_of_mem (t.typed row hrow) (contains_iff_mem.mp hc)
  cases type with
  | long | string => cases htype
  | other => exact htypes _ hf rfl

theorem text_ne_nil (h : t.rows ≠ []) : t.text ≠ [] := by
  obtain ⟨row, rows, hrows⟩ := exists_cons_of_ne_nil h
  rw [text, hrows]
  simp [rowsText, rowText]

theorem reserve_not_mem_stmtScript (t : StmtResult) (need : ℕ) :
    Cmd.reserve need ∉ t.stmtScript := by
  intro hc
  obtain ⟨row, -, hc⟩ := mem_flatMap.mp hc
  simp [rowScript] at hc

theorem renderRows_run (h : renderRows rsBuf t = .ok mem) :
    ∃ o, Cmd.run (fun _ => 0) t.stmtScript { mem := rsBuf, pos := 0 } = some o ∧ o.mem = mem := by
  unfold renderRows at h
  split at h
  · cases h
  · cases hrun : Cmd.run (fun _ => 0) t.stmtScript { mem := rsBuf, pos := 0 } with
    | none =>
      rw [hrun] at h
      cases h
    | some o =>
      rw [hrun] at h
      exact ⟨o, rfl, Except.ok.inj h⟩

theorem length_renderRows (h : renderRows rsBuf t = .ok mem) :
    mem.length = rsBuf.length := by
  obtain ⟨o, hrun, rfl⟩ := renderRows_run h
  exact Cmd.length_run (reserve_not_mem_stmtScript t) hrun

theorem length_row {row : List StmtCell} (hrow : row ∈ t.rows) :
    row.length = t.columns.length := by
  rw [columns, length_map, (t.typed row hrow).length_eq]

theorem no_nul_text (t : StmtResult) : (0 : UInt8) ∉ t.text := by
  intro hc
  obtain ⟨row, -, hc⟩ := mem_flatMap.mp hc
  have hdigits := no_nul_decimal row.2
  have hcells : (0 : UInt8) ∈ cellsText (t.columns.zip row.1) := by
    simpa [rowText, rowHead, hdigits] using hc
  obtain ⟨f, hf, hc⟩ := mem_flatMap.mp hcells
  obtain ⟨field, hfield, hname⟩ := mem_map.mp (of_mem_zip hf).1
  have hnul : (0 : UInt8) ∉ f.1 := hname ▸ t.names field hfield
  rw [cellPiece_eq, mem_append] at hc
  rcases hc with hc | hc
  · simp [label, hnul] at hc
  · exact no_nul_shownText f.2 hc

theorem renderRows_shows (hsize : rsBuf.length = outputBufferSize)
    (ht : t.Printable) : ∃ mem, renderRows rsBuf t = .ok mem ∧ Shows mem t.text := by
  obtain ⟨o, hrun, hholds⟩ := Cmd.run_of_fits (fun _ => 0) t.stmtScript (Out.Holds.start rsBuf)
    (by rw [hsize]; exact ht.fits)
  rw [printed_stmtScript] at hholds
  refine ⟨o.mem, ?_, Shows.of_take t.no_nul_text (hholds.nul (text_ne_nil ht.rows))⟩
  rw [renderRows, no_other_of_types ht.types, if_neg Bool.false_ne_true, hrun]

/-- The same names, and in each place the same shown. -/
structure PrintAlike (a b : StmtResult) : Prop where
  columns : a.columns = b.columns
  cells : a.rows.map (List.map StmtCell.shown) = b.rows.map (List.map StmtCell.shown)

def Readable (t : StmtResult) : Prop := ∀ row ∈ t.rows, ∀ c ∈ row, c.Readable

theorem text_eq (t : StmtResult) :
    t.text = ((t.rows.map (map StmtCell.shown)).zipIdx 1).flatMap fun row =>
      rowHead row.2 ++
        (t.columns.zip row.1).flatMap (fun f => label f.1 ++ shownText f.2) ++ [10] := by
  rw [text, rowsText, zipIdx_map, flatMap_map]
  refine flatMap_congr fun row _ => ?_
  rw [rowText, cellsText, Prod.map_fst, zip_map_right, flatMap_map]
  simp only [cellPiece_eq]
  rfl

theorem text_eq_of_printAlike (h : PrintAlike a b) : a.text = b.text := by
  rw [text_eq, text_eq, h.columns, h.cells]

theorem printAlike_of_text_eq (hcolumns : TellApart a.columns b.columns) (hrows : a.rows ≠ [])
    (ha : a.Readable) (hb : b.Readable) (h : a.text = b.text) : PrintAlike a b := by
  obtain ⟨hcells, hsame⟩ := rowsText_inj hcolumns a.rows
    (fun row hrow => ⟨length_row hrow, ha row hrow⟩)
    (fun row hrow => ⟨length_row hrow, hb row hrow⟩) h
  exact ⟨hsame hrows, hcells⟩

end StmtResult

/-! ### Answers without an error -/

/-- All calls succeed on the instance. -/
def ExecAnswer.fetched (t : StmtResult) : ExecAnswer where
  result := some t
  bindFailed := false
  executeError := none
  storeError := none
  numRows := t.rows.length
  fieldCount := t.fields.length

/-- No call fails on the instance. -/
structure ExecAnswer.Fine (a : ExecAnswer) : Prop where
  bound : a.bindFailed = false
  executed : a.executeError = none
  stored : a.storeError = none

theorem ExecAnswer.fetched_fine (t : StmtResult) : (ExecAnswer.fetched t).Fine := ⟨rfl, rfl, rfl⟩

theorem beginsWith_head {a : UInt8} {word text : Bytes} (h : beginsWith (a :: word) text = true) :
    text.head?.map (fun b => if 65 ≤ b ∧ b ≤ 90 then b + 32 else b) = some a := by
  cases text with
  | nil => cases h
  | cons b text =>
    rw [beginsWith, length_cons, take_succ_cons, map_cons, beq_iff_eq] at h
    rw [head?_cons, Option.map_some, (cons.inj h).1]

theorem isDml_of_isSelect {query : Bytes} (h : isSelect query = true) : isDml query = false := by
  have hother : ∀ {a : UInt8} {word : Bytes}, a ≠ 115 → beginsWith (a :: word) query = false := by
    intro a word ha
    by_contra hc
    have hboth := (beginsWith_head h).symm.trans (beginsWith_head (Bool.eq_true_of_not_eq_false hc))
    exact ha (Option.some.inj hboth).symm
  rw [isDml, hother (by decide), hother (by decide), hother (by decide), hother (by decide)]
  rfl

/-! ### The loop over the instances -/

/-- The buffers have the size that `mysql_drv_execute` gives them. -/
def ExecVars.Sized (v : ExecVars n) : Prop := ∀ i, (v.rsBuf i).length = outputBufferSize

theorem ExecVars.Sized.render {u v : ExecVars n} (hv : v.Sized) {t : StmtResult}
    (h : renderRows (v.rsBuf i) t = .ok mem) :
    ExecVars.Sized { u with rsBuf := update v.rsBuf i mem } := by
  intro j
  show (update v.rsBuf i mem j).length = outputBufferSize
  by_cases hj : j = i
  · subst hj
    rw [update_self, StmtResult.length_renderRows h, hv j]
  · rw [update_of_ne hj, hv j]

/-- An `rs_buf` nobody has written to. -/
def freshBuf (f : ℕ → UInt8) : Bytes := (List.range outputBufferSize).map f

theorem length_freshBuf (f : ℕ → UInt8) : (freshBuf f).length = outputBufferSize := by
  rw [freshBuf, length_map, length_range]

section Execute

variable {args : MysqlArgs} {stack : Fin (n + 1) → ℕ → UInt8} {reconnects : Bool} {c c' : Conn n}
  {stmt : MultiStmt n} {answers : Fin (n + 1) → ExecAnswer} {rs : RsData Empty} {r : Return n}
  {t : Fin (n + 1) → StmtResult}

/-- The variables `mysql_drv_execute` starts with. -/
def startVars (c : Conn n) (rs : RsData Empty) (stack : Fin (n + 1) → ℕ → UInt8) : ExecVars n where
  conn := c
  rs := rs
  rsBuf := fun i => freshBuf (stack i)

theorem startVars_rsBuf (c : Conn n) (rs : RsData Empty) (stack : Fin (n + 1) → ℕ → UInt8)
    (i : Fin (n + 1)) : (startVars c rs stack).rsBuf i = freshBuf (stack i) := by
  simp only [startVars]

theorem sized_startVars (c : Conn n) (rs : RsData Empty) (stack : Fin (n + 1) → ℕ → UInt8) :
    (startVars c rs stack).Sized := by
  intro i
  rw [startVars_rsBuf, length_freshBuf]

section Prepared

variable (hemulated : stmt.emulated = false)
include hemulated

theorem mysqlDrvExecute_eq (hdry : args.dryRun = false) :
    mysqlDrvExecute args stack reconnects c stmt answers rs
      = executeLoop args reconnects stmt answers (finRange (n + 1)) (startVars c rs stack)
          >>= fun p =>
        match p.2 with
        | some rc => .ok (p.1.conn, { rc := rc, rs := p.1.rs, mismatches := [] })
        | none =>
          compareTexts (!isDml stmt.query && isSelect stmt.query) (fun i => some (p.1.rsBuf i))
            >>= fun ms =>
          .ok (p.1.conn, { rc := DbError.none.code, rs := p.1.rs, mismatches := ms }) := by
  rw [mysqlDrvExecute, hdry, hemulated]
  rfl

variable (hdml : isDml stmt.query = false)
include hdml

/-- What one round comes to on an instance with a result set: the results are bound, then the
rows are rendered. -/
theorem executeLoop_result (answers : Fin (n + 1) → ExecAnswer) {t : StmtResult}
    (hfine : (answers i).Fine) (ht : (answers i).result = some t) (is : List (Fin (n + 1)))
    (v : ExecVars n) :
    ∃ u : ExecVars n,
      executeLoop args reconnects stmt answers (i :: is) v
        = if 10 < t.fields.length then .error .outOfBounds
          else renderRows (v.rsBuf i) t >>= fun text =>
            executeLoop args reconnects stmt answers is
              { u with rsBuf := update v.rsBuf i text } := by
  have hbind : bindResult false (answers i)
      = if 10 < t.fields.length then .error .outOfBounds else .ok true := by
    simp only [bindResult, ht, hfine.bound]
    rfl
  let ran := { v with conn := v.conn.ran i stmt.query }
  let u := if i = 0 then { ran with rs.nrows := (answers i).numRows % 2 ^ 32
                                    rs.nfields := (answers i).fieldCount % 2 ^ 32
                                    rs.counter := .other } else ran
  have hbuf : u.rsBuf = v.rsBuf := by
    by_cases hi : i = 0
    · simp only [u, if_pos hi, ran]
    · simp only [u, if_neg hi, ran]
  have hrender : executeInstance args reconnects stmt.query v i (answers i)
      = renderRows (v.rsBuf i) t >>= fun text =>
          .ok ({ u with rsBuf := update v.rsBuf i text }, none) := by
    rw [← hbuf]
    simp only [executeInstance, hfine.executed, hfine.stored, ht, hdml]
    rfl
  refine ⟨u, ?_⟩
  rw [executeLoop, if_pos (stmt.prepared hemulated i), hdml, hbind]
  by_cases hwide : 10 < t.fields.length
  · rw [if_pos hwide, if_pos hwide]
    rfl
  · rw [if_neg hwide, if_neg hwide]
    rw [hrender]
    cases renderRows (v.rsBuf i) t with
    | error e | ok text => rfl

theorem executeLoop_no_metadata (h : (answers i).result = none)
    (is : List (Fin (n + 1))) (v : ExecVars n) :
    executeLoop args reconnects stmt answers (i :: is) v = .ok (v, some (-1)) := by
  have hbind : bindResult false (answers i) = .ok false := by
    simp only [bindResult, h]
  rw [executeLoop, if_pos (stmt.prepared hemulated i), hdml, hbind]
  rfl

variable (hfine : ∀ i, (answers i).Fine)
include hfine

/-- On instances without errors, the loop of a statement that is no change ends with all results
rendered, or at an instance without metadata. -/
theorem executeLoop_fine (is : List (Fin (n + 1))) :
    ∀ {v v' : ExecVars n} {rc : Option ℤ}, is.Nodup →
      executeLoop args reconnects stmt answers is v = .ok (v', rc) →
      (rc = none ∧ (∀ i ∈ is, ∃ t, (answers i).result = some t ∧ t.fields.length ≤ 10 ∧
          renderRows (v.rsBuf i) t = .ok (v'.rsBuf i)) ∧ ∀ i ∉ is, v'.rsBuf i = v.rsBuf i) ∨
        (rc = some (-1) ∧ ∃ i ∈ is, (answers i).result = none) := by
  induction is with
  | nil =>
    intro v v' rc _ h
    cases h
    exact .inl ⟨rfl, nofun, fun _ _ => rfl⟩
  | cons i is ih =>
    intro v v' rc hnodup h
    obtain ⟨hi, hnodup⟩ := nodup_cons.mp hnodup
    cases ht : (answers i).result with
    | none =>
      rw [executeLoop_no_metadata hemulated hdml ht] at h
      cases h
      exact .inr ⟨rfl, i, mem_cons_self, ht⟩
    | some t =>
      obtain ⟨u, hround⟩ := executeLoop_result hemulated hdml answers (hfine i) ht is v
      rw [hround] at h
      by_cases hwide : 10 < t.fields.length
      · rw [if_pos hwide] at h
        cases h
      · rw [if_neg hwide] at h
        obtain ⟨mem, hmem, h⟩ := bind_eq_ok.mp h
        rcases ih hnodup h with ⟨hrc, hfilled, hkept⟩ | ⟨hrc, j, hj, hnone⟩
        · have hother : ∀ j, j ≠ i → update v.rsBuf i mem j = v.rsBuf j :=
            fun j hj => update_of_ne hj mem v.rsBuf
          refine .inl ⟨hrc, forall_mem_cons.mpr ⟨?_, fun j hj => ?_⟩, fun j hj => ?_⟩
          · refine ⟨t, ht, by omega, ?_⟩
            rw [hmem, hkept i hi]
            show _ = Except.ok (update v.rsBuf i mem i)
            rw [update_self]
          · rw [← hother j (ne_of_mem_of_not_mem hj hi)]
            exact hfilled j hj
          · rw [mem_cons, not_or] at hj
            rw [hkept j hj.2]
            exact hother j hj.1
        · exact .inr ⟨hrc, j, mem_cons_of_mem i hj, hnone⟩

theorem exists_executeLoop (ht : ∀ i, (answers i).result = some (t i))
    (hnarrow : ∀ i, (t i).fields.length ≤ 10)
    (hrender : ∀ i rsBuf, rsBuf.length = outputBufferSize → ∃ mem, renderRows rsBuf (t i) = .ok mem)
    (is : List (Fin (n + 1))) :
    ∀ v : ExecVars n, v.Sized →
      ∃ v', executeLoop args reconnects stmt answers is v = .ok (v', none) := by
  induction is with
  | nil => exact fun v _ => ⟨v, rfl⟩
  | cons i is ih =>
    intro v hv
    obtain ⟨u, hround⟩ := executeLoop_result hemulated hdml answers (hfine i) (ht i) is v
    obtain ⟨mem, hmem⟩ := hrender i _ (hv i)
    obtain ⟨v', hrest⟩ := ih { u with rsBuf := update v.rsBuf i mem } (hv.render hmem)
    refine ⟨v', ?_⟩
    rw [hround, if_neg (Nat.not_lt.mpr (hnarrow i)), hmem]
    exact hrest

variable (hdry : args.dryRun = false)
include hdry

/-- What a call has done that returned, on instances without errors. -/
theorem mysqlDrvExecute_fine
    (h : mysqlDrvExecute args stack reconnects c stmt answers rs = .ok (c', r)) :
    (r.rc = DbError.none.code ∧ ∃ buf : Fin (n + 1) → Bytes,
      (∀ i, ∃ t, (answers i).result = some t ∧ t.fields.length ≤ 10 ∧
        renderRows (freshBuf (stack i)) t = .ok (buf i)) ∧
      compareTexts (isSelect stmt.query) (fun i => some (buf i)) = .ok r.mismatches) ∨
    (r.rc = -1 ∧ ∃ i, (answers i).result = none) := by
  rw [mysqlDrvExecute_eq hemulated hdry] at h
  obtain ⟨⟨v, rc⟩, hloop, h⟩ := bind_eq_ok.mp h
  rcases executeLoop_fine hemulated hdml hfine _ (nodup_finRange _) hloop with
    ⟨rfl, hfilled, -⟩ | ⟨rfl, i, -, hnone⟩
  · obtain ⟨ms, hms, h⟩ := bind_eq_ok.mp h
    cases h
    rw [hdml] at hms
    refine .inl ⟨rfl, v.rsBuf, fun i => ?_, hms⟩
    rw [← startVars_rsBuf c rs stack i]
    exact hfilled i (mem_finRange i)
  · cases h
    exact .inr ⟨rfl, i, hnone⟩

/-- On results that can be rendered the call comes to the comparison. -/
theorem exists_mysqlDrvExecute (stack : Fin (n + 1) → ℕ → UInt8)
    (ht : ∀ i, (answers i).result = some (t i)) (hnarrow : ∀ i, (t i).fields.length ≤ 10)
    (hrender : ∀ i rsBuf, rsBuf.length = outputBufferSize →
      ∃ mem, renderRows rsBuf (t i) = .ok mem) :
    ∃ buf : Fin (n + 1) → Bytes,
      (∀ i, renderRows (freshBuf (stack i)) (t i) = .ok (buf i)) ∧
      ∀ ms, compareTexts (isSelect stmt.query) (fun i => some (buf i)) = .ok ms →
        ∃ c' r, mysqlDrvExecute args stack reconnects c stmt answers rs = .ok (c', r) ∧
          r.rc = DbError.none.code ∧ r.mismatches = ms := by
  obtain ⟨v, hloop⟩ : ∃ v, executeLoop args reconnects stmt answers (finRange (n + 1))
      (startVars c rs stack) = .ok (v, none) :=
    exists_executeLoop hemulated hdml hfine ht hnarrow hrender _ _ (sized_startVars c rs stack)
  rcases executeLoop_fine hemulated hdml hfine _ (nodup_finRange _) hloop with
    ⟨-, hfilled, -⟩ | ⟨hc, -⟩
  · refine ⟨v.rsBuf, fun i => ?_, fun ms hms => ?_⟩
    · obtain ⟨t', ht', -, hmem⟩ := hfilled i (mem_finRange i)
      obtain rfl : t i = t' := Option.some.inj ((ht i).symm.trans ht')
      rwa [startVars_rsBuf] at hmem
    · refine ⟨v.conn, { rc := DbError.none.code, rs := v.rs, mismatches := ms }, ?_, rfl, rfl⟩
      rw [mysqlDrvExecute_eq hemulated hdry, hloop, hdml]
      show (compareTexts (!false && isSelect stmt.query) (fun i => some (v.rsBuf i)) >>= _) = _
      rw [Bool.not_false, Bool.true_and, hms]
      rfl
  · cases hc

end Prepared

/-! ### The call -/

theorem mysqlDrvExecute_narrow (hdry : args.dryRun = false) (hemulated : stmt.emulated = false)
    (hsel : isSelect stmt.query = true)
    (h : mysqlDrvExecute args stack reconnects c stmt (fun i => .fetched (t i)) rs = .ok (c', r))
    (i : Fin (n + 1)) : (t i).fields.length ≤ 10 := by
  rcases mysqlDrvExecute_fine hemulated (isDml_of_isSelect hsel)
    (fun i => ExecAnswer.fetched_fine (t i)) hdry h with ⟨-, buf, hbuf, -⟩ | ⟨-, i, hnone⟩
  · obtain ⟨t', ht', hnarrow, -⟩ := hbuf i
    cases ht'
    exact hnarrow
  · cases hnone

/-- On results that can be printed, the call returns, and reports the instances whose text is
not that of the first. -/
theorem mysqlDrvExecute_reports (hdry : args.dryRun = false) (hemulated : stmt.emulated = false)
    (hsel : isSelect stmt.query = true) (hnarrow : ∀ i, (t i).fields.length ≤ 10)
    (ht : ∀ i, (t i).Printable) :
    ∃ c' r, mysqlDrvExecute args stack reconnects c stmt (fun i => .fetched (t i)) rs
        = .ok (c', r) ∧
      ∀ i, (∃ m ∈ r.mismatches, m.index = i) ↔ (t i).text ≠ (t 0).text := by
  have hrender : ∀ i rsBuf, rsBuf.length = outputBufferSize →
      ∃ mem, renderRows rsBuf (t i) = .ok mem := fun i rsBuf hsize =>
    (StmtResult.renderRows_shows hsize (ht i)).imp fun _ => And.left
  obtain ⟨buf, hbuf, hcall⟩ := exists_mysqlDrvExecute hemulated (isDml_of_isSelect hsel)
    (fun i => ExecAnswer.fetched_fine (t i)) hdry stack (fun _ => rfl) hnarrow hrender
  have hshows : ∀ i, Shows (buf i) (t i).text := by
    intro i
    obtain ⟨mem, hmem, hshow⟩ := StmtResult.renderRows_shows (length_freshBuf (stack i)) (ht i)
    cases hmem.symm.trans (hbuf i)
    exact hshow
  obtain ⟨ms, hms, hindex⟩ := compareTexts_reports (fun i => some (buf i))
    fun i => ⟨_, rfl, hshows i⟩
  obtain ⟨c', r, hcall, -, rfl⟩ := hcall ms (hsel ▸ hms)
  exact ⟨c', r, hcall, hindex⟩

/-- The call returns, and reports every instance whose rows are not those of the first. -/
def MissesNone (args : MysqlArgs) (stack : Fin (n + 1) → ℕ → UInt8) (reconnects : Bool)
    (c : Conn n) (stmt : MultiStmt n) (t : Fin (n + 1) → StmtResult) (rs : RsData Empty) : Prop :=
  ∃ c' r, mysqlDrvExecute args stack reconnects c stmt (fun i => .fetched (t i)) rs
      = .ok (c', r) ∧
    ∀ i, (t i).rows ≠ (t ⟨0, n.succ_pos⟩).rows → ∃ m ∈ r.mismatches, m.index = i

/-- **What a comparison of prepared statements misses.**  Where a statement misses no difference,
there are at most ten columns, and no rows that differ are shown alike.  That is enough where
the columns have the same names, or names without `: `, and no string longer than four bytes has
a zero byte. -/
theorem execute_misses_none_iff (hdry : args.dryRun = false) (hemulated : stmt.emulated = false)
    (hsel : isSelect stmt.query = true) (ht : ∀ i, (t i).Printable) :
    (MissesNone args stack reconnects c stmt t rs →
      (∀ i, (t i).fields.length ≤ 10) ∧
        ∀ i, (t i).rows = (t 0).rows ∨ ¬(t i).PrintAlike (t 0)) ∧
    ((∀ i, TellApart (t i).columns (t 0).columns ∧ (t i).Readable) →
      (∀ i, (t i).fields.length ≤ 10) →
      (∀ i, (t i).rows = (t 0).rows ∨ ¬(t i).PrintAlike (t 0)) →
      MissesNone args stack reconnects c stmt t rs) := by
  refine ⟨?_, fun hread hnarrow hcond => ?_⟩
  · rintro ⟨c', r, hcall, hmiss⟩
    have hnarrow := mysqlDrvExecute_narrow hdry hemulated hsel hcall
    obtain ⟨c₁, r₁, hcall₁, htext⟩ := mysqlDrvExecute_reports hdry hemulated hsel hnarrow ht
    obtain ⟨rfl, rfl⟩ := Prod.mk.inj (Except.ok.inj (hcall.symm.trans hcall₁))
    refine ⟨hnarrow, fun i => ?_⟩
    by_contra hc
    rw [not_or, not_not] at hc
    exact (htext i).mp (hmiss i hc.1) (StmtResult.text_eq_of_printAlike hc.2)
  · obtain ⟨c', r, hcall, htext⟩ := mysqlDrvExecute_reports hdry hemulated hsel hnarrow ht
    refine ⟨c', r, hcall, fun i hne => (htext i).mpr fun h => ?_⟩
    obtain ⟨hcolumns, hreadable⟩ := hread i
    exact (hcond i).resolve_left hne
      (StmtResult.printAlike_of_text_eq hcolumns (ht i).rows hreadable (hread 0).2 h)

end Execute

/-- One row with one number, `a`. -/
def oneLong (value : UInt32) : StmtResult where
  fields := [([97], .long)]
  rows := [[.long value]]
  names := by decide
  typed := by
    intro row hrow
    rw [mem_singleton.mp hrow]
    exact .cons rfl .nil

/-- `SELECT a`, prepared on two instances. -/
def selectStmt : MultiStmt 1 where
  query := selectA
  emulated := false
  statements := fun _ => true
  prepared := fun _ _ => rfl

def selectLongs (first second : UInt32) (i : Fin 2) : StmtResult :=
  oneLong (if i.val = 0 then first else second)

theorem printable_selectLongs {first second : UInt32}
    (hfirst : Cmd.fits (oneLong first).stmtScript outputBufferSize 0 = true)
    (hsecond : Cmd.fits (oneLong second).stmtScript outputBufferSize 0 = true) :
    ∀ i, (selectLongs first second i).Printable := by
  have htypes : ∀ f ∈ [(([97] : Bytes), FieldType.long)], f.2 ≠ .other := by decide
  exact Fin.forall_fin_two.mpr
    ⟨⟨cons_ne_nil _ _, htypes, hfirst⟩, ⟨cons_ne_nil _ _, htypes, hsecond⟩⟩

theorem one_for_two_is_not_missed :
    MissesNone strictArgs (Env.blank 1).memory false (Conn.init 1) selectStmt (selectLongs 1 2)
      (Env.blank 1).rs := by
  have hprint : ∀ i, (selectLongs 1 2 i).Printable :=
    printable_selectLongs (by decide) (by decide)
  refine (execute_misses_none_iff rfl rfl rfl hprint).2 ?_ ?_ ?_
  · intro i
    refine ⟨.inl rfl, fun row hrow c hc => ?_⟩
    rw [mem_singleton.mp hrow] at hc
    rw [mem_singleton.mp hc]
    exact StmtCell.readable_long _
  · decide
  · refine Fin.forall_fin_two.mpr ⟨.inl rfl, .inr fun h => ?_⟩
    exact absurd h.cells (by decide)

/-- The numbers 256 and 512 begin with a zero byte, so nothing is printed of them but their
length. -/
theorem difference_256_512_is_missed :
    ∃ c' r, mysqlDrvExecute strictArgs (Env.blank 1).memory false (Conn.init 1) selectStmt
        (fun i => .fetched (selectLongs 256 512 i)) (Env.blank 1).rs = .ok (c', r) ∧
      r.mismatches = [] ∧ (selectLongs 256 512 1).rows ≠ (selectLongs 256 512 0).rows := by
  have hdry : strictArgs.dryRun = false := rfl
  have hemulated : selectStmt.emulated = false := rfl
  have hsel : isSelect selectStmt.query = true := by decide
  have hprint : ∀ i, (selectLongs 256 512 i).Printable :=
    printable_selectLongs (by decide) (by decide)
  have hnarrow : ∀ i, (selectLongs 256 512 i).fields.length ≤ 10 := by decide
  have hsame : ∀ i, (selectLongs 256 512 i).text = (selectLongs 256 512 0).text :=
    Fin.forall_fin_two.mpr ⟨rfl, by decide⟩
  obtain ⟨c', r, hcall, htext⟩ := mysqlDrvExecute_reports hdry hemulated hsel hnarrow hprint
  exact ⟨c', r, hcall, no_reports htext hsame, by decide⟩

end Sysbench.Compare
