/-
Printing into a buffer of limited size, piece by piece.

`pos += snprintf(mem + pos, size - pos, …)` writes what there is room for and advances
by what there was to write, so the position can leave the buffer; the next size then
wraps around and is no limit any more.  A function that prints in this way is a script
of pieces, with requests for room in between.  `fits` follows the sizes alone: where
every piece ends inside the buffer as it then is, the buffer holds the pieces one after
the other and their terminator.
-/
import Sysbench.Lib.CMemory

namespace CMemory

open List

/-- `INT_MAX`; positions are `int`. -/
def intMax : ℕ := 2 ^ 31 - 1

/-- A buffer being filled, and where the next piece goes. -/
structure Out where
  mem : List UInt8
  pos : ℕ

/-- One `snprintf`.  None where the position is behind the end, or leaves `int`. -/
def Out.print (o : Out) (piece : List UInt8) : Option Out :=
  if o.mem.length < o.pos ∨ intMax < o.pos + piece.length then none
  else if o.mem.length = o.pos then some { o with pos := o.pos + piece.length }
  else
    match writeAt o.mem o.pos (piece.take (o.mem.length - o.pos - 1) ++ [0]) with
    | none => none
    | some mem => some { mem := mem, pos := o.pos + piece.length }

/-- `if (size - pos < need) mem = realloc(mem, size *= 2)`, the difference taken in `size_t`.
What the new half holds is up to `fresh`. -/
def Out.reserve (o : Out) (need : ℕ) (fresh : ℕ → UInt8) : Out :=
  if o.pos ≤ o.mem.length ∧ o.mem.length - o.pos < need then
    { o with mem := o.mem ++ (List.range o.mem.length).map fresh }
  else o

inductive Cmd where
  | reserve (need : ℕ)
  | print (piece : List UInt8)

namespace Cmd

def run (fresh : ℕ → UInt8) : List Cmd → Out → Option Out
  | [], o => some o
  | .reserve need :: cmds, o => run fresh cmds (o.reserve need fresh)
  | .print piece :: cmds, o =>
    match o.print piece with
    | none => none
    | some o => run fresh cmds o

/-- What a script prints, were there always room. -/
def printed : List Cmd → List UInt8
  | [] => []
  | .reserve _ :: cmds => printed cmds
  | .print piece :: cmds => piece ++ printed cmds

/-- The room asked for, or the length of a piece. -/
def length : Cmd → ℕ ⊕ ℕ
  | .reserve need => .inl need
  | .print piece => .inr piece.length

/-- The sizes replayed from the lengths alone, for a buffer of `size` bytes that is filled up to
`pos`: every piece ends, with its terminator, inside the buffer as it then is. -/
def lengthsFit : List (ℕ ⊕ ℕ) → ℕ → ℕ → Bool
  | [], _, _ => true
  | .inl need :: lengths, size, pos =>
    lengthsFit lengths (if pos ≤ size ∧ size - pos < need then size + size else size) pos
  | .inr len :: lengths, size, pos =>
    decide (pos + len < size ∧ pos + len ≤ intMax) && lengthsFit lengths size (pos + len)

def fits (cmds : List Cmd) : ℕ → ℕ → Bool := lengthsFit (cmds.map length)

theorem fits_print {piece : List UInt8} {cmds : List Cmd} {size pos : ℕ} :
    fits (.print piece :: cmds) size pos = true ↔
      (pos + piece.length < size ∧ pos + piece.length ≤ intMax) ∧
        fits cmds size (pos + piece.length) = true := by
  show (decide _ && fits cmds size _) = true ↔ _
  rw [Bool.and_eq_true, decide_eq_true_eq]

@[simp] theorem printed_append (cmds cmds' : List Cmd) :
    printed (cmds ++ cmds') = printed cmds ++ printed cmds' := by
  induction cmds with
  | nil => rfl
  | cons cmd cmds ih =>
    cases cmd with
    | reserve need => exact ih
    | print piece =>
      show piece ++ printed (cmds ++ cmds') = piece ++ printed cmds ++ printed cmds'
      rw [ih, append_assoc]

theorem printed_flatMap {α : Type} (f : α → List Cmd) (l : List α) :
    printed (l.flatMap f) = l.flatMap fun a => printed (f a) := by
  induction l with
  | nil => rfl
  | cons a l ih => rw [flatMap_cons, printed_append, ih, flatMap_cons]

end Cmd

/-! ### What the buffer holds -/

/-- The buffer holds `text`, up to the position, and ends it with NUL once anything is there. -/
structure Out.Holds (o : Out) (text : List UInt8) : Prop where
  pos : o.pos = text.length
  mem : o.mem.take text.length = text
  nul : text ≠ [] → o.mem.take (text.length + 1) = text ++ [0]

variable {o : Out} {text piece : List UInt8} {fresh : ℕ → UInt8} {cmds : List Cmd} {o' : Out}

theorem Out.Holds.start (mem : List UInt8) : Out.Holds { mem := mem, pos := 0 } [] :=
  ⟨rfl, rfl, fun h => absurd rfl h⟩

theorem Out.Holds.print (h : o.Holds text) (hfit : o.pos + piece.length < o.mem.length)
    (hint : o.pos + piece.length ≤ intMax) :
    ∃ o', o.print piece = some o' ∧ o'.Holds (text ++ piece) ∧ o'.mem.length = o.mem.length := by
  have hroom : o.pos + (piece ++ [0]).length ≤ o.mem.length := by
    rw [length_append, length_singleton]
    omega
  obtain ⟨mem, hwrite, -⟩ := exists_writeAt hroom
  have htake : mem.take (text.length + (piece.length + 1)) = text ++ (piece ++ [0]) := by
    have hend := take_writeAt_append hwrite
    rw [length_append, length_singleton, h.pos, h.mem] at hend
    exact hend
  refine ⟨{ mem := mem, pos := o.pos + piece.length }, ?_, ⟨?_, ?_, fun _ => ?_⟩,
    length_writeAt hwrite⟩
  · have hall : piece.take (o.mem.length - o.pos - 1) = piece := take_of_length_le (by omega)
    rw [Out.print, if_neg (by omega), if_neg (by omega), hall, hwrite]
  · show o.pos + piece.length = _
    rw [h.pos, length_append]
  · show mem.take _ = _
    have hcut := congrArg (take (text ++ piece).length) htake
    rw [take_take, ← append_assoc, take_left, Nat.min_eq_left] at hcut
    · exact hcut
    · rw [length_append]
      omega
  · show mem.take _ = _
    rw [length_append, Nat.add_assoc, htake, append_assoc]

theorem Out.Holds.reserve (h : o.Holds text) (need : ℕ) : (o.reserve need fresh).Holds text := by
  unfold Out.reserve
  split
  · have hlen : text.length ≤ o.mem.length := by
      have hmem := congrArg length h.mem
      rw [length_take] at hmem
      omega
    refine ⟨h.pos, ?_, fun hne => ?_⟩
    · show (o.mem ++ _).take _ = _
      rw [take_append_of_le_length hlen, h.mem]
    · have hnul := h.nul hne
      have hlen' : text.length + 1 ≤ o.mem.length := by
        have hmem := congrArg length hnul
        rw [length_take, length_append, length_singleton] at hmem
        omega
      rw [take_append_of_le_length hlen', hnul]
  · exact h

theorem Out.length_reserve (o : Out) (need : ℕ) :
    (o.reserve need fresh).mem.length = if o.pos ≤ o.mem.length ∧ o.mem.length - o.pos < need
      then o.mem.length + o.mem.length else o.mem.length := by
  unfold Out.reserve
  split
  · rw [length_append, length_map, length_range]
  · rfl

@[simp] theorem Out.pos_reserve (o : Out) (need : ℕ) : (o.reserve need fresh).pos = o.pos := by
  unfold Out.reserve
  split <;> rfl

/-- A script goes on behind a print if and only if that succeeds. -/
theorem Cmd.run_print_eq_some :
    Cmd.run fresh (.print piece :: cmds) o = some o' ↔
      ∃ o₁, o.print piece = some o₁ ∧ Cmd.run fresh cmds o₁ = some o' := by
  rw [Cmd.run]
  cases o.print piece with
  | none => simp
  | some o₁ => simp

theorem Cmd.run_of_fits (fresh : ℕ → UInt8) (cmds : List Cmd) :
    ∀ {o : Out} {text : List UInt8}, o.Holds text → Cmd.fits cmds o.mem.length o.pos = true →
      ∃ o', Cmd.run fresh cmds o = some o' ∧ o'.Holds (text ++ Cmd.printed cmds) := by
  induction cmds with
  | nil =>
    intro o text h _
    exact ⟨o, rfl, by rwa [Cmd.printed, append_nil]⟩
  | cons cmd cmds ih =>
    intro o text h hfits
    cases cmd with
    | reserve need =>
      refine ih (h.reserve need) ?_
      rw [Out.length_reserve, Out.pos_reserve]
      exact hfits
    | print piece =>
      obtain ⟨⟨hroom, hint⟩, hrest⟩ := Cmd.fits_print.mp hfits
      obtain ⟨o', hprint, hholds, hlen⟩ := h.print hroom hint
      have hpos : o'.pos = o.pos + piece.length := by
        rw [hholds.pos, h.pos, length_append]
      obtain ⟨o'', hrun, hholds'⟩ := ih hholds (by rw [hlen, hpos]; exact hrest)
      exact ⟨o'', Cmd.run_print_eq_some.mpr ⟨o', hprint, hrun⟩,
        by rwa [Cmd.printed, ← append_assoc]⟩

/-! ### Sizes -/

theorem Out.print_eq_some (h : o.print piece = some o') :
    o.pos ≤ o.mem.length ∧ o.pos + piece.length ≤ intMax ∧ o'.pos = o.pos + piece.length ∧
      (o.mem.length = o.pos ∧ o'.mem = o.mem ∨ o.pos < o.mem.length ∧
        writeAt o.mem o.pos (piece.take (o.mem.length - o.pos - 1) ++ [0]) = some o'.mem) := by
  unfold Out.print at h
  split at h
  · cases h
  · split at h
    · cases h
      exact ⟨by omega, by omega, rfl, .inl ⟨by assumption, rfl⟩⟩
    · cases hwrite : writeAt o.mem o.pos (piece.take (o.mem.length - o.pos - 1) ++ [0]) with
      | none =>
        rw [hwrite] at h
        cases h
      | some mem =>
        rw [hwrite] at h
        cases h
        exact ⟨by omega, by omega, rfl, .inr ⟨by omega, rfl⟩⟩

theorem Out.length_print (h : o.print piece = some o') :
    o'.mem.length = o.mem.length := by
  obtain ⟨-, -, -, ⟨-, hmem⟩ | ⟨-, hwrite⟩⟩ := print_eq_some h
  · rw [hmem]
  · exact length_writeAt hwrite

theorem Out.exists_print (hpos : o.pos ≤ o.mem.length) (hint : o.pos + piece.length ≤ intMax) :
    ∃ o', o.print piece = some o' := by
  unfold Out.print
  rw [if_neg (by omega)]
  by_cases hfull : o.mem.length = o.pos
  · exact ⟨_, if_pos hfull⟩
  · rw [if_neg hfull]
    have hroom : o.pos + (piece.take (o.mem.length - o.pos - 1) ++ [0]).length ≤ o.mem.length := by
      rw [length_append, length_take, length_singleton]
      omega
    obtain ⟨mem, hwrite, -⟩ := exists_writeAt hroom
    exact ⟨_, by rw [hwrite]⟩

namespace Cmd

/-- Size and position at the end of a script, from the sizes alone; none where a print begins
behind the end, or the position leaves `int`. -/
def extent : List Cmd → ℕ → ℕ → Option (ℕ × ℕ)
  | [], size, pos => some (size, pos)
  | .reserve need :: cmds, size, pos =>
    extent cmds (if pos ≤ size ∧ size - pos < need then size + size else size) pos
  | .print piece :: cmds, size, pos =>
    if pos ≤ size ∧ pos + piece.length ≤ intMax then extent cmds size (pos + piece.length)
    else none

theorem run_extent (fresh : ℕ → UInt8) (cmds : List Cmd) :
    ∀ o : Out, (run fresh cmds o).map (fun o => (o.mem.length, o.pos))
      = extent cmds o.mem.length o.pos := by
  induction cmds with
  | nil => exact fun o => rfl
  | cons cmd cmds ih =>
    intro o
    cases cmd with
    | reserve need => rw [run, ih, Out.length_reserve, Out.pos_reserve, extent]
    | print piece =>
      rw [run, extent]
      by_cases h : o.pos ≤ o.mem.length ∧ o.pos + piece.length ≤ intMax
      · obtain ⟨o', hprint⟩ := Out.exists_print h.1 h.2
        obtain ⟨-, -, hpos, -⟩ := Out.print_eq_some hprint
        rw [if_pos h, hprint]
        rw [ih o', Out.length_print hprint, hpos]
      · have hprint : o.print piece = none := if_pos (by omega)
        rw [if_neg h, hprint]
        rfl

/-- A script that only prints runs to its end if its last piece begins inside the buffer or right
behind it. -/
theorem extent_prints {piece : List UInt8} {size : ℕ}
    (hprints : ∀ need, Cmd.reserve need ∉ cmds) (hint : size + piece.length ≤ intMax) :
    ∀ pos, (extent (cmds ++ [.print piece]) size pos).isSome ↔
      pos + (printed cmds).length ≤ size := by
  induction cmds with
  | nil =>
    intro pos
    rw [nil_append, extent, printed]
    by_cases h : pos ≤ size
    · simp only [extent, if_pos (show pos ≤ size ∧ pos + piece.length ≤ intMax by omega)]
      simpa using h
    · simp only [if_neg (show ¬(pos ≤ size ∧ pos + piece.length ≤ intMax) by omega)]
      simpa using h
  | cons cmd cmds ih =>
    intro pos
    cases cmd with
    | reserve need => exact absurd mem_cons_self (hprints need)
    | print first =>
      have hrest := ih (fun need hc => hprints need (mem_cons_of_mem _ hc))
        (pos + first.length)
      rw [cons_append, extent, printed, length_append, ← Nat.add_assoc]
      by_cases h : pos ≤ size ∧ pos + first.length ≤ intMax
      · rw [if_pos h]
        exact hrest
      · rw [if_neg h]
        simp only [Option.isSome_none, Bool.false_eq_true, false_iff]
        omega

/-- The buffer as each print finds it, and what is printed there. -/
def seen (fresh : ℕ → UInt8) : List Cmd → Out → List (Out × List UInt8)
  | [], _ => []
  | .reserve need :: cmds, o => seen fresh cmds (o.reserve need fresh)
  | .print piece :: cmds, o =>
    (o, piece) ::
      match o.print piece with
      | none => []
      | some o => seen fresh cmds o

theorem length_run (hprints : ∀ need, Cmd.reserve need ∉ cmds) :
    ∀ {o o' : Out}, run fresh cmds o = some o' → o'.mem.length = o.mem.length := by
  induction cmds with
  | nil =>
    intro o o' hrun
    cases hrun
    rfl
  | cons cmd cmds ih =>
    intro o o' hrun
    cases cmd with
    | reserve need => exact absurd mem_cons_self (hprints need)
    | print piece =>
      obtain ⟨o₁, hprint, hrun⟩ := run_print_eq_some.mp hrun
      have hrest := ih (fun need hc => hprints need (mem_cons_of_mem _ hc)) hrun
      rw [hrest, Out.length_print hprint]

theorem length_of_mem_seen (fresh : ℕ → UInt8) (cmds : List Cmd)
    (hprints : ∀ need, Cmd.reserve need ∉ cmds) :
    ∀ {o : Out}, ∀ p ∈ seen fresh cmds o, p.1.mem.length = o.mem.length := by
  induction cmds with
  | nil => exact fun _ hp => absurd hp not_mem_nil
  | cons cmd cmds ih =>
    intro o
    cases cmd with
    | reserve need => exact absurd mem_cons_self (hprints need)
    | print piece =>
      have hrest : ∀ need, Cmd.reserve need ∉ cmds := fun need hc =>
        hprints need (mem_cons_of_mem _ hc)
      rw [seen, forall_mem_cons]
      refine ⟨rfl, ?_⟩
      cases hprint : o.print piece with
      | none => exact fun p hp => absurd hp not_mem_nil
      | some o₁ =>
        intro p hp
        rw [ih hrest p hp, Out.length_print hprint]

theorem pos_le_of_run (fresh : ℕ → UInt8) (cmds : List Cmd) :
    ∀ {o o' : Out}, run fresh cmds o = some o' →
      ∀ p ∈ seen fresh cmds o, p.1.pos ≤ p.1.mem.length := by
  induction cmds with
  | nil => exact fun _ _ hp => absurd hp not_mem_nil
  | cons cmd cmds ih =>
    intro o o' hrun
    cases cmd with
    | reserve need => exact ih hrun
    | print piece =>
      obtain ⟨o₁, hprint, hrun⟩ := run_print_eq_some.mp hrun
      rw [seen, hprint]
      exact forall_mem_cons.mpr ⟨(Out.print_eq_some hprint).1, ih hrun⟩

/-- `fits` says that no print is cut short, and that there is room for a terminator before each
of them and at the end. -/
theorem fits_iff (fresh : ℕ → UInt8) (cmds : List Cmd) :
    ∀ {o : Out}, o.pos < o.mem.length →
      (fits cmds o.mem.length o.pos = true ↔
        (∀ p ∈ seen fresh cmds o,
          p.1.pos < p.1.mem.length ∧ p.1.pos + p.2.length < p.1.mem.length) ∧
        ∃ o', run fresh cmds o = some o' ∧ o'.pos < o'.mem.length) := by
  induction cmds with
  | nil => simp [fits, lengthsFit, seen, run]
  | cons cmd cmds ih =>
    intro o hroom
    cases cmd with
    | reserve need =>
      have hroom' : (o.reserve need fresh).pos < (o.reserve need fresh).mem.length := by
        rw [Out.pos_reserve, Out.length_reserve]
        split
        · omega
        · exact hroom
      have hrest := ih hroom'
      rw [Out.length_reserve, Out.pos_reserve] at hrest
      exact hrest
    | print piece =>
      rw [fits_print, seen, run, forall_mem_cons]
      by_cases hpiece : o.pos + piece.length < o.mem.length ∧ o.pos + piece.length ≤ intMax
      · obtain ⟨o₁, hprint⟩ := Out.exists_print hroom.le hpiece.2
        obtain ⟨-, -, hpos, -⟩ := Out.print_eq_some hprint
        have hlen := Out.length_print hprint
        have hrest := ih (show o₁.pos < o₁.mem.length by omega)
        rw [hlen, hpos] at hrest
        rw [hprint]
        simp only [hpiece, hroom, true_and, and_self]
        exact hrest
      · refine ⟨fun h => absurd h.1 hpiece, ?_⟩
        rintro ⟨⟨⟨-, hcut⟩, -⟩, o', hrun, -⟩
        cases hprint : o.print piece with
        | none =>
          rw [hprint] at hrun
          cases hrun
        | some o₁ => exact absurd ⟨hcut, (Out.print_eq_some hprint).2.1⟩ hpiece

theorem fits_of_printed_lt (cmds : List Cmd) :
    ∀ {size pos : ℕ}, pos + (printed cmds).length < size → pos + (printed cmds).length ≤ intMax →
      fits cmds size pos = true := by
  induction cmds with
  | nil => exact fun _ _ => rfl
  | cons cmd cmds ih =>
    intro size pos hroom hint
    cases cmd with
    | reserve need =>
      rw [printed] at hroom hint
      apply ih _ hint
      split
      · omega
      · exact hroom
    | print piece =>
      rw [printed, length_append, ← Nat.add_assoc] at hroom hint
      exact fits_print.mpr ⟨by omega, ih hroom hint⟩

theorem printed_line {α : Type} (need : α → ℕ) (piece : α → List UInt8) (l : List α) :
    printed (l.flatMap fun a => [.reserve (need a), .print (piece a)]) = l.flatMap piece := by
  induction l with
  | nil => rfl
  | cons a l ih =>
    rw [flatMap_cons, printed_append, ih]
    simp [printed]

/-- A line of columns, each with a request for room.  A request that covers the column and the end
of the line, and is no larger than the smallest size, leaves room enough, though the buffer
is doubled only once. -/
theorem fits_line {α : Type} {need : α → ℕ} {piece : α → List UInt8} {last : List UInt8}
    {least : ℕ} {rest : List Cmd} (l : List α) (hl : l ≠ [])
    (hneed : ∀ a ∈ l, (piece a).length + last.length < need a ∧ need a ≤ least + 1) :
    ∀ {size pos : ℕ}, least ≤ size → pos < size →
      pos + (l.flatMap piece).length + last.length ≤ intMax →
      (∀ size', least ≤ size' → pos + (l.flatMap piece).length + last.length < size' →
        fits rest size' (pos + (l.flatMap piece).length + last.length) = true) →
      fits (l.flatMap (fun a => [.reserve (need a), .print (piece a)]) ++ .print last :: rest)
        size pos = true := by
  induction l with
  | nil => exact absurd rfl hl
  | cons a l ih =>
    intro size pos hleast hpos hint hrest
    obtain ⟨⟨hcolumn, hrequest⟩, hneed⟩ := forall_mem_cons.mp hneed
    rw [flatMap_cons, length_append, ← Nat.add_assoc] at hint hrest
    rw [flatMap_cons, append_assoc, cons_append, cons_append, nil_append]
    -- The buffer behind the request has room for the column and the end of the line.
    show fits (.print (piece a) :: _) (if _ then _ else _) pos = true
    generalize hsize : (if pos ≤ size ∧ size - pos < need a then size + size else size) = size'
    have hgrown : least ≤ size' ∧ pos + need a ≤ size' := by
      rw [← hsize]
      split
      · omega
      · omega
    refine fits_print.mpr ⟨by omega, ?_⟩
    by_cases hlast : l = []
    · subst hlast
      simp only [flatMap_nil, length_nil, Nat.add_zero] at hint hrest
      rw [flatMap_nil, nil_append]
      exact fits_print.mpr ⟨by omega, hrest size' hgrown.1 (by omega)⟩
    · exact ih hlast hneed hgrown.1 (by omega) hint hrest

end Cmd

/-! ### What the garbage behind the position cannot change -/

/-- Two buffers that hold the same up to the position, and the same string once anything is
printed.  What stands behind may differ. -/
structure Out.Alike (o o' : Out) : Prop where
  room : 0 < o.mem.length
  pos : o'.pos = o.pos
  length : o'.mem.length = o.mem.length
  mem : o'.mem.take o.pos = o.mem.take o.pos
  string : 0 < o.pos → ∃ k ≤ o.mem.length, o'.mem.take k = o.mem.take k ∧
    (0 : UInt8) ∈ o.mem.take k

theorem Out.Alike.start {mem mem' : List UInt8} (hlen : mem'.length = mem.length)
    (hroom : 0 < mem.length) : Out.Alike { mem := mem, pos := 0 } { mem := mem', pos := 0 } :=
  ⟨hroom, rfl, hlen, rfl, fun h => absurd h (Nat.lt_irrefl 0)⟩

theorem Out.Alike.reserve {fresh' : ℕ → UInt8} (h : o.Alike o') (need : ℕ) :
    (o.reserve need fresh).Alike (o'.reserve need fresh') := by
  unfold Out.reserve
  rw [h.pos, h.length]
  split
  · rename_i hgrow
    have happend : ∀ k ≤ o.mem.length, o'.mem.take k = o.mem.take k →
        (o'.mem ++ (range o.mem.length).map fresh').take k = o.mem.take k ∧
        (o.mem ++ (range o.mem.length).map fresh).take k = o.mem.take k := by
      intro k hk hsame
      rw [take_append_of_le_length (by rw [h.length]; exact hk),
        take_append_of_le_length hk]
      exact ⟨hsame, rfl⟩
    refine ⟨?_, rfl, ?_, ?_, fun hpos => ?_⟩
    · rw [length_append]
      exact Nat.add_pos_left h.room _
    · simp only [length_append, length_map, length_range, h.length]
    · obtain ⟨hnew, hold⟩ := happend _ hgrow.1 h.mem
      exact hnew.trans hold.symm
    · obtain ⟨k, hk, hsame, hnul⟩ := h.string hpos
      obtain ⟨hnew, hold⟩ := happend k hk hsame
      refine ⟨k, ?_, hnew.trans hold.symm, ?_⟩
      · rw [length_append]
        exact Nat.le_add_right_of_le hk
      · exact hold.symm ▸ hnul
  · exact h

theorem Out.Alike.print {o' p : Out} (h : o.Alike o') (hprint : o.print piece = some p) :
    ∃ p', o'.print piece = some p' ∧ p.Alike p' := by
  have hlen := Out.length_print hprint
  obtain ⟨hpos, hint, hpos₁, hmem⟩ := Out.print_eq_some hprint
  obtain ⟨p', hprint'⟩ : ∃ p', o'.print piece = some p' :=
    Out.exists_print (by rw [h.pos, h.length]; exact hpos) (by rw [h.pos]; exact hint)
  have hlen' := Out.length_print hprint'
  obtain ⟨-, -, hpos₁', hmem'⟩ := Out.print_eq_some hprint'
  rw [h.length, h.pos] at hmem'
  -- It is enough to find a part of the memory that agrees, reaches to the position and has a NUL.
  suffices hk : ∃ k ≤ p.mem.length, p'.mem.take k = p.mem.take k ∧ (0 : UInt8) ∈ p.mem.take k ∧
      min p.pos p.mem.length ≤ k by
    obtain ⟨k, hk, hsame, hnul, hreach⟩ := hk
    refine ⟨p', hprint', hlen ▸ h.room, by rw [hpos₁', hpos₁, h.pos],
      by rw [hlen', hlen, h.length], ?_, fun _ => ⟨k, hk, hsame, hnul⟩⟩
    have hcut := congrArg (take (min p.pos p.mem.length)) hsame
    rw [take_take, take_take, Nat.min_eq_left hreach] at hcut
    rw [take_eq_take_min, hlen', h.length, ← hlen, hcut, ← take_eq_take_min]
  rcases hmem with ⟨hfull, hmem⟩ | ⟨hroom, hwrite⟩
  · -- The buffer is full and stays as it is.
    obtain ⟨-, hmem'⟩ : o.mem.length = o.pos ∧ p'.mem = o'.mem :=
      hmem'.resolve_right fun hc => by omega
    obtain ⟨k, -, hsame, hnul⟩ := h.string (by have := h.room; omega)
    refine ⟨p.mem.length, Nat.le_refl _, ?_, ?_, Nat.min_le_right _ _⟩
    · rw [hmem', hmem, hfull]
      exact h.mem
    · rw [take_length, hmem]
      exact mem_of_mem_take hnul
  · obtain ⟨-, hwrite'⟩ := hmem'.resolve_left fun hc => by omega
    have htake := take_writeAt_append hwrite
    have htake' := take_writeAt_append hwrite'
    have hsize : (piece.take (o.mem.length - o.pos - 1) ++ [(0 : UInt8)]).length
        = min piece.length (o.mem.length - o.pos - 1) + 1 := by
      rw [length_append, length_take, length_singleton, Nat.min_comm]
    refine ⟨_, ?_, htake'.trans ((congrArg (· ++ _) h.mem).trans htake.symm), ?_, ?_⟩
    · omega
    · rw [htake]
      simp
    · omega

end CMemory
