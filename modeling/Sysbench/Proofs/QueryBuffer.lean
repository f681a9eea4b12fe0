/-
When a query loop builds its text.

What matters is how much has been written, `j`, and how large the buffer is.  Up to `2 ^ 31`
bytes all goes well: the buffer doubles until the next item fits, and a measure goes down that
counts the bytes of the query first and the size of the buffer second.  Behind that the size
wraps to zero, and what happens depends on the item: a byte and a text at `j > 0` are written
behind the end, a text at `j = 0` is tried again for all time, and only where nothing is
printed does the buffer grow to its old size once more.

`Fits` follows the query and asks of each item what it needs; it is exactly what the loop
needs to end well whatever the allocator does.  Both directions come from one lemma about one
round, `round_step`.
-/
import Sysbench.Model.QueryBuffer

namespace Sysbench.QueryBuffer

open List CMemory Machine

/-! ### What the query asks for -/

/-- What is written for the byte `c` of the query. -/
def itemText (loop : Loop) (c : UInt8) (vcnt : ℕ) : Bytes :=
  if c ≠ 63 then [c]
  else
    match loop.piece vcnt with
    | some (.text bs) => bs
    | _ => []

/-- The number of the next placeholder behind the byte `c`. -/
def nextVcnt (c : UInt8) (vcnt : ℕ) : ℕ := if c ≠ 63 then vcnt else vcnt + 1

/-- The text of a query, with placeholders from `vcnt` on. -/
def expand (loop : Loop) : Bytes → ℕ → Bytes
  | [], _ => []
  | c :: query, vcnt => itemText loop c vcnt ++ expand loop query (nextVcnt c vcnt)

/-- What a piece needs behind `j` bytes.  The first piece is printed to the start of the buffer,
whose size then has to be an `int`. -/
def Piece.Fits (j : ℕ) : Piece → Prop
  | .nothing => True
  | .text bs => j + max 1 bs.length < 2 ^ 31 ∧ (j = 0 → bs.length < 2 ^ 30)

def ItemFits (loop : Loop) (c : UInt8) (vcnt j : ℕ) : Prop :=
  if c ≠ 63 then j + 1 < 2 ^ 31 else ∃ piece, loop.piece vcnt = some piece ∧ piece.Fits j

/-- Every item of the query has what it needs. -/
def Fits (loop : Loop) : Bytes → ℕ → ℕ → Prop
  | [], _, _ => True
  | c :: query, vcnt, j =>
    ItemFits loop c vcnt j ∧ Fits loop query (nextVcnt c vcnt) (j + (itemText loop c vcnt).length)

variable {alloc : ℕ → Bool} {heap : ℕ → UInt8} {loop : Loop} {query : Bytes} {s : State}
  {mem : Bytes}

variable {c : UInt8}

theorem itemText_byte (hc : c ≠ 63) (vcnt : ℕ) : itemText loop c vcnt = [c] :=
  if_pos hc

variable {vcnt : ℕ} {bs : Bytes}

theorem itemText_text (h : loop.piece vcnt = some (.text bs)) : itemText loop 63 vcnt = bs := by
  simp [itemText, h]

theorem itemText_nothing (h : loop.piece vcnt = some .nothing) : itemText loop 63 vcnt = [] := by
  simp [itemText, h]

variable {j : ℕ}

theorem itemFits_byte (hc : c ≠ 63) : ItemFits loop c vcnt j ↔ j + 1 < 2 ^ 31 := by
  rw [ItemFits, if_pos hc]

variable {piece : Piece}

theorem itemFits_piece (h : loop.piece vcnt = some piece) :
    ItemFits loop 63 vcnt j ↔ piece.Fits j := by
  simp [ItemFits, h]

/-! ### Sizes -/

/-- The sizes that doubling leads to. -/
def IsSize (b : ℕ) : Prop := ∃ k, 8 ≤ k ∧ k ≤ 31 ∧ b = 2 ^ k

variable {b : ℕ}

theorem IsSize.bounds (h : IsSize b) : 256 ≤ b ∧ b ≤ 2 ^ 31 := by
  obtain ⟨k, hlow, hhigh, rfl⟩ := h
  have hmin : 2 ^ 8 ≤ 2 ^ k := Nat.pow_le_pow_right (by decide) hlow
  have hmax : 2 ^ k ≤ 2 ^ 31 := Nat.pow_le_pow_right (by decide) hhigh
  omega

theorem isSize_first : IsSize 256 := ⟨8, by decide, by decide, by decide⟩

theorem IsSize.double (h : IsSize b) (hlt : b < 2 ^ 31) : IsSize (b * 2) := by
  obtain ⟨k, hlow, -, rfl⟩ := h
  have hk : k < 31 := (Nat.pow_lt_pow_iff_right (by decide)).mp hlt
  exact ⟨k + 1, by omega, by omega, by rw [Nat.pow_succ]⟩

theorem nextLen_zero : nextLen 0 = 256 := rfl

theorem IsSize.nextLen (h : IsSize b) (hlt : b < 2 ^ 31) : nextLen b = b * 2 := by
  have hmin := h.bounds.1
  rw [QueryBuffer.nextLen, if_pos (by omega), Nat.mod_eq_of_lt (by omega)]

/-! ### States -/

/-- The buffer is as large as `buflen` says. -/
def BufOk (s : State) : Prop := (s.buf.getD []).length = s.buflen

/-- Where a loop can be. -/
inductive Mode (loop : Loop) (query : Bytes) (s : State) : Prop
  /-- There is no buffer, or one of size zero, and nothing in it. -/
  | fresh (hat : (query[s.i]?).isSome = true) (hj : s.j = 0) (hlen : s.buflen = 0)
      (hneed : s.needRealloc = true)
  /-- At a new byte of the query. -/
  | ready (hsize : IsSize s.buflen) (hj : s.j < s.buflen) (hfirst : s.buflen = 2 ^ 31 → 0 < s.j)
      (hneed : s.needRealloc = false)
  /-- At a text again that has not fit. -/
  | retry {bs : Bytes} (hat : query[s.i]? = some 63) (hpiece : loop.piece s.vcnt = some (.text bs))
      (hsize : IsSize s.buflen) (hj : s.j < s.buflen) (hneed : s.needRealloc = true)
      (hlong : s.buflen ≤ s.j + bs.length ∨ s.buflen = 2 ^ 31 ∧ s.j = 0 ∧ 2 ^ 30 ≤ bs.length)
  /-- At a piece without text, on the way from size zero back to the largest size. -/
  | regrow (hat : query[s.i]? = some 63) (hpiece : loop.piece s.vcnt = some .nothing)
      (hj : s.j = 2 ^ 31 - 1) (hneed : s.needRealloc = true)
      (hsize : s.buflen = 0 ∨ IsSize s.buflen ∧ s.buflen < 2 ^ 31)

theorem Mode.j_lt (h : Mode loop query s) : s.j < 2 ^ 31 := by
  cases h with
  | fresh hat hj hlen hneed | regrow hat hpiece hj hneed hsize => omega
  | ready hsize hj hfirst hneed | retry hat hpiece hsize hj hneed hlong =>
    have hmax := hsize.bounds.2
    omega

/-- What has been written is in the buffer, but for the way back from size zero. -/
theorem Mode.j_le (h : Mode loop query s) (hpiece : loop.piece s.vcnt ≠ some .nothing) :
    s.j ≤ s.buflen := by
  cases h with
  | fresh hat hj hlen | ready hsize hj | retry hat hpiece' hsize hj =>
    omega
  | regrow hat hpiece' hj hneed hsize => exact absurd hpiece' hpiece

/-! ### Making room -/

/-- The size of the buffer behind `reserve`. -/
def reservedLen (s : State) : ℕ :=
  if s.buflen ≤ s.j + 1 ∨ s.needRealloc = true then nextLen s.buflen else s.buflen

theorem length_resize (buf : Option Bytes) (size : ℕ) : (resize heap buf size).length = size := by
  simp [resize]

variable {n : ℕ}

theorem take_resize {buf : Option Bytes} {size : ℕ} (hold : n ≤ (buf.getD []).length)
    (hnew : n ≤ size) : (resize heap buf size).take n = (buf.getD []).take n := by
  apply ext_getElem?
  intro k
  rw [getElem?_take, getElem?_take]
  by_cases hk : k < n
  · have hlt : k < (buf.getD []).length := by omega
    simp [resize, getElem?_range (show k < size by omega), getElem?_eq_getElem hlt]
  · rw [if_neg hk, if_neg hk]

/-- The state behind `reserve`, with the new buffer. -/
def reserved (s : State) (mem : Bytes) : State :=
  { s with buflen := reservedLen s, needRealloc := false, buf := some mem }

/-- `reserve` fails with the allocation, or leaves a buffer of the new size with the old bytes in
front. -/
theorem reserve_cases (hmode : Mode loop query s) (hbuf : BufOk s) :
    (reserve alloc heap s = none ∧ alloc (reservedLen s) = false) ∨
      ∃ mem, reserve alloc heap s = some (reserved s mem) ∧
        mem.length = reservedLen s ∧
        (s.j ≤ s.buflen → s.j ≤ reservedLen s → mem.take s.j = (s.buf.getD []).take s.j) := by
  have hj := hmode.j_lt
  have hmod : (s.j + 1) % 2 ^ 32 = s.j + 1 := Nat.mod_eq_of_lt (by omega)
  unfold reserve reserved reservedLen
  rw [hmod]
  by_cases hgrow : s.buflen ≤ s.j + 1 ∨ s.needRealloc = true
  · rw [if_pos hgrow, if_pos hgrow]
    by_cases halloc : alloc (nextLen s.buflen) = true
    · rw [if_pos halloc]
      refine .inr ⟨_, rfl, length_resize _ _, fun hold hnew => take_resize ?_ hnew⟩
      rw [hbuf]
      exact hold
    · rw [if_neg halloc]
      exact .inl ⟨rfl, by simpa using halloc⟩
  · rw [if_neg hgrow, if_neg hgrow]
    -- There is room, so there is a buffer, and nothing changes.
    rw [not_or, Bool.not_eq_true] at hgrow
    obtain ⟨i, j, vcnt, buflen, needRealloc, buf⟩ := s
    cases buf with
    | none =>
      have hzero : 0 = buflen := hbuf
      simp only at hgrow
      omega
    | some mem =>
      obtain rfl : needRealloc = false := hgrow.2
      exact .inr ⟨mem, rfl, hbuf, fun _ _ => rfl⟩

/-! ### One item -/

/-- The size for `snprintf` is the room, and too large where that is no `int`. -/
structure SizeOk (size : ℕ → ℕ) : Prop where
  eq : ∀ r < 2 ^ 31, size r = r
  le : ∀ r, 2 ^ 31 ≤ r → r ≤ size r

variable {mem' : Bytes} {off : ℕ}

theorem take_of_writeAt (h : writeAt mem off bs = some mem') (hn : n ≤ bs.length) :
    mem'.take (off + n) = mem.take off ++ bs.take n := by
  have hfit := (writeAt_eq_some h).1
  have hall := congrArg (take (off + n)) (take_writeAt_append h)
  rw [take_take, Nat.min_eq_left (by omega), take_append, take_take,
    Nat.min_eq_right (by omega), length_take, Nat.min_eq_left (by omega),
    Nat.add_sub_cancel_left] at hall
  exact hall

theorem snprintf_room (text : Bytes) (hoff : off < mem.length) :
    ∃ mem', snprintf mem off (mem.length - off) text = some mem' ∧ mem'.length = mem.length ∧
      mem'.take off = mem.take off ∧
      (text.length < mem.length - off →
        mem'.take (off + text.length) = mem.take off ++ text) := by
  have hroom : off + (text.take (mem.length - off - 1) ++ [0]).length ≤ mem.length := by
    rw [length_append, length_take, length_singleton]
    omega
  obtain ⟨mem', hwrite, hlen⟩ := exists_writeAt hroom
  refine ⟨mem', ?_, hlen, ?_, fun hfit => ?_⟩
  · rw [snprintf, if_neg (by omega), hwrite]
  · have hfront := take_of_writeAt hwrite (Nat.zero_le _)
    rwa [Nat.add_zero, take_zero, append_nil] at hfront
  · have hall : text.take (mem.length - off - 1) = text := take_of_length_le (by omega)
    rw [hall] at hwrite
    have htext := take_of_writeAt (n := text.length) hwrite (by simp)
    rwa [take_left] at htext

theorem snprintf_behind {mem text : Bytes} {size : ℕ} (hsize : 0 < size) (hoff : mem.length ≤ off) :
    snprintf mem off size text = none := by
  rw [snprintf, if_neg (by omega), writeAt, if_neg]
  rw [length_append, length_singleton]
  omega

theorem room_eq (hj : j ≤ b) (hb : b ≤ 2 ^ 31) : (b + 2 ^ 32 - j) % 2 ^ 32 = b - j := by
  omega

variable {r : State} {mem : Bytes}

theorem putByte_room (hbuf : r.buf = some mem) (hj : r.j < mem.length) (c : UInt8) :
    ∃ mem', putByte r c
        = .inl { r with i := (r.i + 1) % 2 ^ 32, j := (r.j + 1) % 2 ^ 32, buf := some mem' } ∧
      mem'.length = mem.length ∧ mem'.take (r.j + 1) = mem.take r.j ++ [c] := by
  have hroom : r.j + [c].length ≤ mem.length := hj
  obtain ⟨mem', hwrite, hlen⟩ := exists_writeAt hroom
  refine ⟨mem', ?_, hlen, take_writeAt_append hwrite⟩
  simp only [putByte, hbuf, hwrite]

theorem putByte_behind (hbuf : r.buf = some mem) (hj : mem.length ≤ r.j) (c : UInt8) :
    putByte r c = .inr (.fault .outOfBounds) := by
  have hnone : writeAt mem r.j [c] = none := by
    rw [writeAt, if_neg]
    rw [length_singleton]
    omega
  simp only [putByte, hbuf, hnone]

/-- The placeholder is done with. -/
def donePiece (r : State) (piece : Piece) (mem : Bytes) : State :=
  { r with
    i := (r.i + 1) % 2 ^ 32
    j := (r.j + piece.length) % 2 ^ 32
    vcnt := (r.vcnt + 1) % 2 ^ 32
    buf := some mem }

section Piece

variable {room : ℕ} (hpiece : loop.piece r.vcnt = some piece) (hbuf : r.buf = some mem)
  (hroom : (r.buflen + 2 ^ 32 - r.j) % 2 ^ 32 = room)
include hpiece hbuf hroom

/-- The three ways on from a piece, by what printing it reports. -/
theorem putPiece_eq :
    putPiece loop r =
      match printPiece loop.size mem r.j room piece with
      | none => .inr (.fault .outOfBounds)
      | some (mem, false) => .inl { r with needRealloc := true, buf := some mem }
      | some (mem, true) => .inl (donePiece r piece mem) := by
  unfold putPiece
  rw [hpiece, hbuf]
  rw [hroom]
  rfl

theorem putPiece_done
    (hprint : printPiece loop.size mem r.j room piece = some (mem', true)) :
    putPiece loop r = .inl (donePiece r piece mem') := by
  rw [putPiece_eq hpiece hbuf hroom, hprint]

theorem putPiece_again
    (hprint : printPiece loop.size mem r.j room piece = some (mem', false)) :
    putPiece loop r = .inl { r with needRealloc := true, buf := some mem' } := by
  rw [putPiece_eq hpiece hbuf hroom, hprint]

end Piece

theorem printPiece_text {size : ℕ → ℕ} {room : ℕ}
    (hprint : snprintf mem off (size room) bs = some mem') :
    printPiece size mem off room (.text bs)
      = some (mem', decide (bs.length < room ∧ room < 2 ^ 31)) := by
  rw [printPiece, hprint, Option.map_some]

section Text

variable (hpiece : loop.piece r.vcnt = some (.text bs)) (hbuf : r.buf = some mem)
include hpiece hbuf

theorem putPiece_room (hsize : SizeOk loop.size) (hlen : mem.length = r.buflen)
    (hj : r.j < r.buflen) (hint : r.buflen - r.j < 2 ^ 31) (hmax : r.buflen ≤ 2 ^ 31) :
    ∃ mem', mem'.length = mem.length ∧ mem'.take r.j = mem.take r.j ∧
      (r.buflen - r.j ≤ bs.length →
        putPiece loop r = .inl { r with needRealloc := true, buf := some mem' }) ∧
      (bs.length < r.buflen - r.j → putPiece loop r = .inl (donePiece r (.text bs) mem') ∧
        mem'.take (r.j + bs.length) = mem.take r.j ++ bs) := by
  have hroom := room_eq (Nat.le_of_lt hj) hmax
  obtain ⟨mem', hprint, hlen', hfront, htext⟩ := snprintf_room bs (hlen ▸ hj)
  rw [hlen] at hprint htext
  rw [← hsize.eq _ hint] at hprint
  have hpiece' := printPiece_text hprint
  refine ⟨mem', hlen', hfront, fun hlong => ?_, fun hfit => ⟨?_, htext hfit⟩⟩
  · rw [decide_eq_false (by omega)] at hpiece'
    exact putPiece_again hpiece hbuf hroom hpiece'
  · rw [decide_eq_true (And.intro hfit hint)] at hpiece'
    exact putPiece_done hpiece hbuf hroom hpiece'

/-- A text into the start of a buffer whose size is no `int` is never taken to fit. -/
theorem putPiece_noInt (hj : r.j = 0) (hlast : r.buflen = 2 ^ 31) :
    putPiece loop r = .inr (.fault .outOfBounds) ∨
      ∃ mem', putPiece loop r = .inl { r with needRealloc := true, buf := some mem' } ∧
        mem'.length = mem.length := by
  have hroom : (r.buflen + 2 ^ 32 - r.j) % 2 ^ 32 = 2 ^ 31 := by omega
  cases hprint : snprintf mem r.j (loop.size (2 ^ 31)) bs with
  | none =>
    refine .inl ?_
    rw [putPiece_eq hpiece hbuf hroom, printPiece, hprint, Option.map_none]
  | some mem' =>
    have hpiece' := printPiece_text hprint
    rw [decide_eq_false (by omega)] at hpiece'
    refine .inr ⟨mem', putPiece_again hpiece hbuf hroom hpiece', ?_⟩
    unfold snprintf at hprint
    split at hprint
    · cases hprint
      rfl
    · exact length_writeAt hprint

theorem putPiece_behind (hsize : SizeOk loop.size) (hlen : mem.length = 0) (hzero : r.buflen = 0)
    (hj : 0 < r.j) (hlt : r.j < 2 ^ 31) : putPiece loop r = .inr (.fault .outOfBounds) := by
  have hroom : (r.buflen + 2 ^ 32 - r.j) % 2 ^ 32 = 2 ^ 32 - r.j := by omega
  have hpos : 0 < loop.size (2 ^ 32 - r.j) := by
    have hle := hsize.le (2 ^ 32 - r.j) (by omega)
    omega
  have hnone : snprintf mem r.j (loop.size (2 ^ 32 - r.j)) bs = none :=
    snprintf_behind hpos (by omega)
  rw [putPiece_eq hpiece hbuf hroom, printPiece, hnone, Option.map_none]

/-- A text into a buffer of size zero, at its start: nothing is written. -/
theorem putPiece_empty (hsize : SizeOk loop.size) (hzero : r.buflen = 0) (hj : r.j = 0) :
    putPiece loop r = .inl { r with needRealloc := true, buf := some mem } := by
  have hroom : (r.buflen + 2 ^ 32 - r.j) % 2 ^ 32 = 0 := by omega
  have hprint : snprintf mem r.j (loop.size 0) bs = some mem := by
    rw [hsize.eq 0 (by decide), snprintf, if_pos rfl]
  have hpiece' := printPiece_text hprint
  exact putPiece_again hpiece hbuf hroom hpiece'

end Text

/-! ### One round -/

/-- Room for a byte and its terminator, in a buffer whose rest is an `int`; a buffer that had to
grow has grown. -/
structure Roomy (s : State) : Prop where
  size : IsSize (reservedLen s)
  j_lt : s.j + 1 < reservedLen s
  int : reservedLen s - s.j < 2 ^ 31
  grown : s.needRealloc = true → s.buflen < reservedLen s

theorem roomy_fresh (hj : s.j = 0) (hlen : s.buflen = 0) : Roomy s := by
  have hnext : reservedLen s = 256 := by
    rw [reservedLen, hlen]
    rfl
  constructor
  case size =>
    rw [hnext]
    exact isSize_first
  all_goals omega

/-- At a new byte, only a buffer of the largest size that is full is lost. -/
theorem roomy_ready (hsize : IsSize s.buflen) (hj : s.j < s.buflen)
    (hfirst : s.buflen = 2 ^ 31 → 0 < s.j) (hneed : s.needRealloc = false) :
    Roomy s ∨ reservedLen s = 0 ∧ s.j = 2 ^ 31 - 1 := by
  have hbounds := hsize.bounds
  have hno : ¬s.needRealloc = true := by simp [hneed]
  by_cases hroom : s.j + 1 < s.buflen
  · have hsame : reservedLen s = s.buflen := by
      rw [reservedLen, if_neg]
      rintro (hfull | htrue)
      · omega
      · exact hno htrue
    refine .inl ⟨hsame ▸ hsize, by omega, ?_, fun htrue => absurd htrue hno⟩
    omega
  · have hnext : reservedLen s = nextLen s.buflen := if_pos (.inl (by omega))
    by_cases hlast : s.buflen = 2 ^ 31
    · rw [hlast] at hnext
      exact .inr ⟨hnext, by omega⟩
    · have hlt : s.buflen < 2 ^ 31 := by omega
      have hmax := (hsize.double hlt).bounds.2
      rw [hsize.nextLen hlt] at hnext
      refine .inl ⟨hnext ▸ hsize.double hlt, by omega, by omega, fun htrue => absurd htrue hno⟩

/-- At a text again: it has room, or it cannot fit. -/
theorem roomy_retry (hsize : IsSize s.buflen) (hj : s.j < s.buflen) (hneed : s.needRealloc = true)
    (hlong : s.buflen ≤ s.j + n ∨ s.buflen = 2 ^ 31 ∧ s.j = 0 ∧ 2 ^ 30 ≤ n) :
    Roomy s ∨ reservedLen s = 2 ^ 31 ∧ s.j = 0 ∧ 2 ^ 30 ≤ n ∨
      reservedLen s = 0 ∧ (2 ^ 31 ≤ s.j + n ∨ s.j = 0 ∧ 2 ^ 30 ≤ n) := by
  have hbounds := hsize.bounds
  have hnext : reservedLen s = nextLen s.buflen := if_pos (.inr hneed)
  by_cases hlast : s.buflen = 2 ^ 31
  · rw [hlast] at hnext
    exact .inr (.inr ⟨hnext, by omega⟩)
  · have hlt : s.buflen < 2 ^ 31 := by omega
    have hdouble := hsize.double hlt
    rw [hsize.nextLen hlt] at hnext
    by_cases hint : s.buflen * 2 - s.j < 2 ^ 31
    · exact .inl ⟨hnext ▸ hdouble, by omega, by omega, fun _ => by omega⟩
    · have hmax := hdouble.bounds.2
      exact .inr (.inl ⟨by omega, by omega, by omega⟩)

structure Base (loop : Loop) (query : Bytes) (s : State) : Prop where
  i_le : s.i ≤ query.length
  vcnt_lt : s.vcnt + (query.length - s.i) < 2 ^ 32
  buf : BufOk s
  mode : Mode loop query s

/-- What a round at the byte `c` of the query can come to. -/
inductive Round (alloc : ℕ → Bool) (loop : Loop) (query : Bytes) (s : State) (c : UInt8) :
    State ⊕ Outcome → Prop
  | noMemory {n : ℕ} (halloc : alloc n = false)
      (hzero : n = 0 → ItemFits loop c s.vcnt s.j → loop.piece s.vcnt = some .nothing) :
      Round alloc loop query s c (.inr .noMemory)
  | fault {f : Fault} (hnot : ¬ItemFits loop c s.vcnt s.j) :
      Round alloc loop query s c (.inr (.fault f))
  | again {s' : State} (hsame : s'.i = s.i ∧ s'.j = s.j ∧ s'.vcnt = s.vcnt) (hbuf : BufOk s')
      (hmode : Mode loop query s') (hneed : s'.needRealloc = true)
      (hgrown : ItemFits loop c s.vcnt s.j →
        s'.buflen ≤ 2 ^ 31 ∧ (s.needRealloc = true → s.buflen < s'.buflen))
      (htext : loop.piece s.vcnt ≠ some .nothing →
        (s'.buf.getD []).take s.j = (s.buf.getD []).take s.j) :
      Round alloc loop query s c (.inl s')
  | done {s' : State} (hfits : ItemFits loop c s.vcnt s.j) (hi : s'.i = s.i + 1)
      (hj : s'.j = s.j + (itemText loop c s.vcnt).length) (hvcnt : s'.vcnt = nextVcnt c s.vcnt)
      (hbuf : BufOk s') (hmode : Mode loop query s')
      (htext : loop.piece s.vcnt ≠ some .nothing →
        (s'.buf.getD []).take s'.j = (s.buf.getD []).take s.j ++ itemText loop c s.vcnt) :
      Round alloc loop query s c (.inl s')

/-- A round that begins with an allocation that fails, or goes on in the new buffer. -/
theorem round_of_reserve (hbase : Base loop query s) (hat : query[s.i]? = some c)
    (hzero : reservedLen s = 0 → ItemFits loop c s.vcnt s.j → loop.piece s.vcnt = some .nothing)
    (hround : ∀ mem : Bytes, mem.length = reservedLen s →
      (s.j ≤ s.buflen → s.j ≤ reservedLen s → mem.take s.j = (s.buf.getD []).take s.j) →
      Round alloc loop query s c
        (if c ≠ 63 then putByte (reserved s mem) c else putPiece loop (reserved s mem))) :
    Round alloc loop query s c (step alloc heap loop query s) := by
  unfold step
  rw [hat]
  rcases reserve_cases hbase.mode hbase.buf with ⟨hfail, halloc⟩ | ⟨mem, hres, hlen, hfront⟩
  · rw [hfail]
    exact .noMemory halloc hzero
  · rw [hres]
    exact hround mem hlen hfront

theorem round_byte (hshort : query.length < 2 ^ 32) (hbase : Base loop query s)
    (hat : query[s.i]? = some c) (hc : c ≠ 63) :
    Round alloc loop query s c (step alloc heap loop query s) := by
  have hi := (List.getElem?_eq_some_iff.mp hat).1
  have hroomy : Roomy s ∨ reservedLen s = 0 ∧ s.j = 2 ^ 31 - 1 := by
    cases hbase.mode with
    | fresh hat' hj hlen => exact .inl (roomy_fresh hj hlen)
    | ready hsize hj hfirst hneed => exact roomy_ready hsize hj hfirst hneed
    | retry hat' | regrow hat' => exact absurd (Option.some.inj (hat.symm.trans hat')) hc
  apply round_of_reserve hbase hat
  · intro hnone hfits
    rw [itemFits_byte hc] at hfits
    rcases hroomy with hroomy | ⟨-, hlast⟩
    · have hlt := hroomy.j_lt
      omega
    · omega
  · intro mem hlen hfront
    rw [if_pos hc]
    rcases hroomy with hroomy | ⟨hnone, hlast⟩
    · have hlt := hroomy.j_lt
      have hmax := hroomy.size.bounds.2
      have hjlt : s.j < mem.length := by omega
      obtain ⟨mem', hput, hlen', htext⟩ := putByte_room (r := reserved s mem) rfl hjlt c
      rw [hput]
      have hjmod : (s.j + 1) % 2 ^ 32 = s.j + 1 := Nat.mod_eq_of_lt (by omega)
      have himod : (s.i + 1) % 2 ^ 32 = s.i + 1 := Nat.mod_eq_of_lt (by omega)
      refine .done ((itemFits_byte hc).mpr (by omega)) himod ?_ (if_pos hc).symm
        (hlen'.trans hlen) ?_ fun hpiece => ?_
      · rw [itemText_byte hc]
        exact hjmod
      · refine .ready hroomy.size ?_ (fun _ => ?_) rfl
        · show (s.j + 1) % 2 ^ 32 < reservedLen s
          rw [hjmod]
          exact hlt
        · show 0 < (s.j + 1) % 2 ^ 32
          omega
      · rw [itemText_byte hc, ← hfront (hbase.mode.j_le hpiece) (by omega)]
        show mem'.take ((s.j + 1) % 2 ^ 32) = _
        rw [hjmod]
        exact htext
    · have hput := putByte_behind (r := reserved s mem) rfl
        (show mem.length ≤ s.j by omega) c
      rw [hput]
      refine .fault ?_
      rw [itemFits_byte hc]
      omega

/-- The rounds at a placeholder whose number is too large. -/
theorem round_missing (hbase : Base loop query s) (hat : query[s.i]? = some 63)
    (hpiece : loop.piece s.vcnt = none) :
    Round alloc loop query s 63 (step alloc heap loop query s) := by
  have hnot : ¬ItemFits loop 63 s.vcnt s.j := by
    simp [ItemFits, hpiece]
  apply round_of_reserve hbase hat
  · exact fun _ hfits => absurd hfits hnot
  · intro mem _ _
    have hput : putPiece loop (reserved s mem) = .inr (.fault .noParam) := by
      unfold putPiece
      rw [show loop.piece (reserved s mem).vcnt = none from hpiece]
    rw [hput]
    exact .fault hnot

/-- What is behind a placeholder that is done. -/
theorem round_donePiece (hshort : query.length < 2 ^ 32) (hbase : Base loop query s)
    (hat : query[s.i]? = some 63) (hpiece : loop.piece s.vcnt = some piece) (hfits : piece.Fits s.j)
    (htext : (itemText loop 63 s.vcnt).length = piece.length)
    (hlen : mem'.length = reservedLen s) (hsize : IsSize (reservedLen s))
    (hj : s.j + piece.length < reservedLen s)
    (hfirst : reservedLen s = 2 ^ 31 → 0 < s.j + piece.length)
    (hmem : loop.piece s.vcnt ≠ some .nothing →
      mem'.take (s.j + piece.length) = (s.buf.getD []).take s.j ++ itemText loop 63 s.vcnt) :
    Round alloc loop query s 63 (.inl (donePiece (reserved s mem) piece mem')) := by
  have hi := (List.getElem?_eq_some_iff.mp hat).1
  have hmax := hsize.bounds.2
  have hvcnt := hbase.vcnt_lt
  have himod : (s.i + 1) % 2 ^ 32 = s.i + 1 := Nat.mod_eq_of_lt (by omega)
  have hjmod : (s.j + piece.length) % 2 ^ 32 = s.j + piece.length := Nat.mod_eq_of_lt (by omega)
  have hvmod : (s.vcnt + 1) % 2 ^ 32 = s.vcnt + 1 := Nat.mod_eq_of_lt (by omega)
  refine .done ((itemFits_piece hpiece).mpr hfits) himod ?_ hvmod hlen ?_ fun hne => ?_
  · rw [htext]
    exact hjmod
  · refine .ready hsize ?_ (fun hlast => ?_) rfl
    · show (s.j + piece.length) % 2 ^ 32 < reservedLen s
      rw [hjmod]
      exact hj
    · show 0 < (s.j + piece.length) % 2 ^ 32
      rw [hjmod]
      exact hfirst hlast
  · show mem'.take ((s.j + piece.length) % 2 ^ 32) = _
    rw [hjmod]
    exact hmem hne

/-- A piece without text: there is room, or the size goes on from zero to the largest. -/
theorem round_nothing (hshort : query.length < 2 ^ 32) (hbase : Base loop query s)
    (hat : query[s.i]? = some 63) (hpiece : loop.piece s.vcnt = some .nothing) :
    Round alloc loop query s 63 (step alloc heap loop query s) := by
  have hcases : Roomy s ∨ s.j = 2 ^ 31 - 1 ∧ (s.needRealloc = true → s.buflen < reservedLen s) ∧
      (reservedLen s = 0 ∨ IsSize (reservedLen s)) := by
    cases hbase.mode with
    | fresh hat' hj hlen => exact .inl (roomy_fresh hj hlen)
    | ready hsize hj hfirst hneed =>
      refine (roomy_ready hsize hj hfirst hneed).imp_right fun hlost => ?_
      exact ⟨hlost.2, fun htrue => absurd htrue (by simp [hneed]), .inl hlost.1⟩
    | retry hat' hpiece' => cases hpiece.symm.trans hpiece'
    | regrow hat' hpiece' hj hneed hsize =>
      have hnext : reservedLen s = nextLen s.buflen := if_pos (.inr hneed)
      rcases hsize with hzero | ⟨hsize, hlt⟩
      · rw [hzero, nextLen_zero] at hnext
        exact .inr ⟨hj, fun _ => by omega, .inr (hnext ▸ isSize_first)⟩
      · have hmin := hsize.bounds.1
        rw [hsize.nextLen hlt] at hnext
        exact .inr ⟨hj, fun _ => by omega, .inr (hnext ▸ hsize.double hlt)⟩
  apply round_of_reserve hbase hat
  · exact fun _ _ => hpiece
  · intro mem hlen _
    have hdone (hsize : IsSize (reservedLen s)) (hj : s.j < reservedLen s)
        (hint : reservedLen s - s.j < 2 ^ 31) :
        Round alloc loop query s 63 (putPiece loop (reserved s mem)) := by
      have hmax := hsize.bounds.2
      have hprint : printPiece loop.size mem s.j (reservedLen s - s.j) .nothing
          = some (mem, true) := by
        rw [printPiece, decide_eq_true (by omega)]
      have hput := putPiece_done (r := reserved s mem) hpiece rfl (room_eq hj.le hmax) hprint
      rw [hput]
      refine round_donePiece hshort hbase hat hpiece trivial ?_ hlen hsize hj ?_ ?_
      · rw [itemText_nothing hpiece]
        rfl
      · omega
      · exact fun hne => absurd hpiece hne
    rcases hcases with hroomy | ⟨hj, hgrown, hsize⟩
    · have hlt := hroomy.j_lt
      exact hdone hroomy.size (by omega) hroomy.int
    · by_cases hlast : reservedLen s = 2 ^ 31
      · exact hdone (hsize.resolve_left (by omega)) (by omega) (by omega)
      · -- The room has wrapped around and is no `int`.
        have hsmall : reservedLen s ≤ 2 ^ 30 := by
          rcases hsize with hzero | hsize
          · omega
          · have hmax := (hsize.double (by have hle := hsize.bounds.2; omega)).bounds.2
            omega
        have hroom : (reservedLen s + 2 ^ 32 - s.j) % 2 ^ 32 = reservedLen s + 2 ^ 31 + 1 := by
          omega
        have hprint : printPiece loop.size mem s.j (reservedLen s + 2 ^ 31 + 1) .nothing
            = some (mem, false) := by
          rw [printPiece, decide_eq_false (by omega)]
        have hput := putPiece_again (r := reserved s mem) hpiece rfl hroom hprint
        rw [hput]
        refine .again ⟨rfl, rfl, rfl⟩ hlen ?_ rfl (fun _ => ⟨?_, hgrown⟩) ?_
        · exact .regrow hat hpiece hj rfl (hsize.imp_right fun h => ⟨h, by
            show reservedLen s < 2 ^ 31
            omega⟩)
        · show reservedLen s ≤ 2 ^ 31
          omega
        · exact fun hne => absurd hpiece hne

/-- The text is too long for the largest buffer, or for the room that is an `int` at the start. -/
def TooLong (j : ℕ) (bs : Bytes) : Prop :=
  2 ^ 31 ≤ j + max 1 bs.length ∨ j = 0 ∧ 2 ^ 30 ≤ bs.length

/-- A text: there is room to try, or it cannot fit. -/
theorem text_cases (hbase : Base loop query s) (hpiece : loop.piece s.vcnt = some (.text bs)) :
    Roomy s ∨ reservedLen s = 2 ^ 31 ∧ s.j = 0 ∧ 2 ^ 30 ≤ bs.length ∨
      reservedLen s = 0 ∧ TooLong s.j bs := by
  unfold TooLong
  cases hbase.mode with
  | fresh hat' hj hlen => exact .inl (roomy_fresh hj hlen)
  | ready hsize hj hfirst hneed =>
    refine (roomy_ready hsize hj hfirst hneed).imp_right fun hlost => .inr ⟨hlost.1, ?_⟩
    omega
  | retry hat' hpiece' hsize hj hneed hlong =>
    cases hpiece.symm.trans hpiece'
    refine (roomy_retry hsize hj hneed hlong).imp_right fun hlost => hlost.imp_right ?_
    rintro ⟨hzero, hlong⟩
    exact ⟨hzero, by omega⟩
  | regrow hat' hpiece' => cases hpiece.symm.trans hpiece'

theorem not_itemFits_of_tooLong (hpiece : loop.piece s.vcnt = some (.text bs))
    (hlong : TooLong s.j bs) : ¬ItemFits loop 63 s.vcnt s.j := by
  unfold TooLong at hlong
  rw [itemFits_piece hpiece]
  rintro ⟨hfit, hfirst⟩
  omega

section Text

variable (hat : query[s.i]? = some 63) (hpiece : loop.piece s.vcnt = some (.text bs))
include hat hpiece

/-- With room to try, a text is written, or once more into a larger buffer. -/
theorem round_text_roomy (hsizes : SizeOk loop.size) (hshort : query.length < 2 ^ 32)
    (hbase : Base loop query s) (hroomy : Roomy s)
    (hlen : mem.length = reservedLen s) (hold : mem.take s.j = (s.buf.getD []).take s.j) :
    Round alloc loop query s 63 (putPiece loop (reserved s mem)) := by
  have hlt := hroomy.j_lt
  have hint := hroomy.int
  have hmax := hroomy.size.bounds.2
  obtain ⟨mem', hlen', hkept, hagain, hdone⟩ := putPiece_room (r := reserved s mem) hpiece
    rfl hsizes hlen (show s.j < reservedLen s by omega) hint hmax
  by_cases hfit : bs.length < reservedLen s - s.j
  · obtain ⟨hput, htext⟩ := hdone hfit
    rw [hput]
    refine round_donePiece hshort hbase hat hpiece ⟨by omega, fun hj => ?_⟩ ?_
      (hlen'.trans hlen) hroomy.size ?_ ?_ ?_
    · -- The room is an `int`, so that the buffer is of half the largest size at most.
      have hhalf := (hroomy.size.double (by omega)).bounds.2
      omega
    · rw [itemText_text hpiece]
      rfl
    · show s.j + bs.length < reservedLen s
      omega
    · omega
    · intro _
      rw [itemText_text hpiece, ← hold]
      exact htext
  · rw [hagain (Nat.not_lt.mp hfit)]
    refine .again ⟨rfl, rfl, rfl⟩ (hlen'.trans hlen) ?_ rfl (fun _ => ⟨hmax, hroomy.grown⟩)
      fun _ => hkept.trans hold
    refine .retry hat hpiece hroomy.size (show s.j < reservedLen s by omega) rfl (.inl ?_)
    show reservedLen s ≤ s.j + bs.length
    omega

/-- In the largest buffer and at its start the room is no `int`. -/
theorem round_text_noInt (hlast : reservedLen s = 2 ^ 31) (hj : s.j = 0)
    (hlong : 2 ^ 30 ≤ bs.length) (hlen : mem.length = reservedLen s) :
    Round alloc loop query s 63 (putPiece loop (reserved s mem)) := by
  have hnot := not_itemFits_of_tooLong hpiece (.inr ⟨hj, hlong⟩)
  rcases putPiece_noInt (r := reserved s mem) hpiece rfl hj hlast with hput | ⟨mem', hput, hlen'⟩
  · rw [hput]
    exact .fault hnot
  · rw [hput]
    refine .again ⟨rfl, rfl, rfl⟩ (hlen'.trans hlen) ?_ rfl (fun hfits => absurd hfits hnot) ?_
    · refine .retry hat hpiece ?_ ?_ rfl (.inr ⟨hlast, hj, hlong⟩)
      · show IsSize (reservedLen s)
        rw [hlast]
        exact ⟨31, by decide, le_rfl, rfl⟩
      · show s.j < reservedLen s
        omega
    · rw [hj]
      exact fun _ => rfl

/-- Once the size has wrapped to zero, the loop begins anew or writes behind the buffer. -/
theorem round_text_zero (hsizes : SizeOk loop.size) (hzero : reservedLen s = 0)
    (hnot : ¬ItemFits loop 63 s.vcnt s.j) (hjlt : s.j < 2 ^ 31)
    (hlen : mem.length = reservedLen s) :
    Round alloc loop query s 63 (putPiece loop (reserved s mem)) := by
  rcases Nat.eq_zero_or_pos s.j with hj | hj
  · rw [putPiece_empty (r := reserved s mem) hpiece rfl hsizes hzero hj]
    refine .again ⟨rfl, rfl, rfl⟩ hlen ?_ rfl (fun hfits => absurd hfits hnot) ?_
    · exact .fresh (Option.isSome_iff_exists.mpr ⟨63, hat⟩) hj hzero rfl
    · rw [hj]
      exact fun _ => rfl
  · have hput := putPiece_behind (r := reserved s mem) hpiece rfl hsizes (hlen.trans hzero)
      hzero hj hjlt
    rw [hput]
    exact .fault hnot

theorem round_text (hsizes : SizeOk loop.size) (hshort : query.length < 2 ^ 32)
    (hbase : Base loop query s) :
    Round alloc loop query s 63 (step alloc heap loop query s) := by
  have hne : loop.piece s.vcnt ≠ some .nothing := by
    rw [hpiece]
    exact nofun
  apply round_of_reserve hbase hat
  · intro hzero hfits
    rcases text_cases hbase hpiece with hroomy | ⟨hlast, -⟩ | ⟨-, hlong⟩
    · have hlt := hroomy.j_lt
      omega
    · omega
    · exact absurd hfits (not_itemFits_of_tooLong hpiece hlong)
  · intro mem hlen hfront
    rcases text_cases hbase hpiece with hroomy | ⟨hlast, hj, hlong⟩ | ⟨hzero, hlong⟩
    · have hlt := hroomy.j_lt
      have hold := hfront (hbase.mode.j_le hne) (by omega)
      exact round_text_roomy hat hpiece hsizes hshort hbase hroomy hlen hold
    · exact round_text_noInt hat hpiece hlast hj hlong hlen
    · have hnot := not_itemFits_of_tooLong hpiece hlong
      exact round_text_zero hat hpiece hsizes hzero hnot hbase.mode.j_lt hlen

end Text

theorem round_step (alloc : ℕ → Bool) (heap : ℕ → UInt8) (hsizes : SizeOk loop.size)
    (hshort : query.length < 2 ^ 32) (hbase : Base loop query s) (hat : query[s.i]? = some c) :
    Round alloc loop query s c (step alloc heap loop query s) := by
  by_cases hc : c = 63
  · subst hc
    cases hpiece : loop.piece s.vcnt with
    | none => exact round_missing hbase hat hpiece
    | some piece =>
      cases piece with
      | nothing => exact round_nothing hshort hbase hat hpiece
      | text bs => exact round_text hat hpiece hsizes hshort hbase
  · exact round_byte hshort hbase hat hc

/-! ### Whole runs -/

theorem base_start (loop : Loop) (hquery : query ≠ []) (hcount : vcnt + query.length < 2 ^ 32) :
    Base loop query (start vcnt) := by
  refine ⟨Nat.zero_le _, hcount, rfl, .fresh ?_ rfl rfl rfl⟩
  have hpos : 0 < query.length := length_pos_iff.mpr hquery
  simp [start, hpos]

variable {s' : State}

theorem Base.again (hbase : Base loop query s) (hi : s'.i = s.i) (hvcnt : s'.vcnt = s.vcnt)
    (hbuf : BufOk s') (hmode : Mode loop query s') : Base loop query s' := by
  have hle := hbase.i_le
  have hlt := hbase.vcnt_lt
  exact ⟨by omega, by omega, hbuf, hmode⟩

theorem Base.done (hbase : Base loop query s) (hat : query[s.i]? = some c) (hi : s'.i = s.i + 1)
    (hvcnt : s'.vcnt = nextVcnt c s.vcnt) (hbuf : BufOk s') (hmode : Mode loop query s') :
    Base loop query s' := by
  have hlt := (List.getElem?_eq_some_iff.mp hat).1
  have hcount := hbase.vcnt_lt
  have hnext : nextVcnt c s.vcnt ≤ s.vcnt + 1 := by
    unfold nextVcnt
    split <;> omega
  exact ⟨by omega, by omega, hbuf, hmode⟩

theorem drop_of_getElem? {i : ℕ} (hat : query[i]? = some c) :
    query.drop i = c :: query.drop (i + 1) := by
  obtain ⟨hlt, hget⟩ := List.getElem?_eq_some_iff.mp hat
  rw [drop_eq_getElem_cons hlt, hget]

/-- What is left of the query fits. -/
def RestFits (loop : Loop) (query : Bytes) (s : State) : Prop :=
  Fits loop (query.drop s.i) s.vcnt s.j

theorem restFits_iff (hat : query[s.i]? = some c) (hi : s'.i = s.i + 1)
    (hj : s'.j = s.j + (itemText loop c s.vcnt).length) (hvcnt : s'.vcnt = nextVcnt c s.vcnt) :
    RestFits loop query s ↔ ItemFits loop c s.vcnt s.j ∧ RestFits loop query s' := by
  unfold RestFits
  rw [drop_of_getElem? hat, hi, hj, hvcnt]
  rfl

theorem RestFits.item (h : RestFits loop query s) (hat : query[s.i]? = some c) :
    ItemFits loop c s.vcnt s.j := by
  unfold RestFits at h
  rw [drop_of_getElem? hat] at h
  exact h.1

theorem RestFits.congr (hsame : s'.i = s.i ∧ s'.j = s.j ∧ s'.vcnt = s.vcnt) :
    RestFits loop query s' ↔ RestFits loop query s := by
  unfold RestFits
  rw [hsame.1, hsame.2.1, hsame.2.2]

theorem not_built_of_not_fits (hsizes : SizeOk loop.size) (hshort : query.length < 2 ^ 32)
    (hbase : Base loop query s) (hnot : ¬RestFits loop query s) {o : Outcome}
    (h : Halts (step alloc heap loop query) s o) :
    (∃ f, o = .fault f) ∨ o = .noMemory ∧ ∃ n, alloc n = false := by
  refine Halts.outcome (P := fun s => Base loop query s ∧ ¬RestFits loop query s)
    (Q := fun o => (∃ f, o = .fault f) ∨ o = .noMemory ∧ ∃ n, alloc n = false) ?_ ?_
    ⟨hbase, hnot⟩ h
  · rintro s s' ⟨hbase, hnot⟩ hstep
    cases hat : query[s.i]? with
    | none =>
      simp only [step, hat] at hstep
      cases hstep
    | some c =>
      have hround := round_step alloc heap hsizes hshort hbase hat
      rw [hstep] at hround
      cases hround with
      | again hsame hbuf hmode hneed hgrown htext =>
        exact ⟨hbase.again hsame.1 hsame.2.2 hbuf hmode, (RestFits.congr hsame).not.mpr hnot⟩
      | done hfits hi hj hvcnt hbuf hmode htext =>
        refine ⟨hbase.done hat hi hvcnt hbuf hmode, fun hrest => hnot ?_⟩
        exact (restFits_iff hat hi hj hvcnt).mpr ⟨hfits, hrest⟩
  · rintro s o ⟨hbase, hnot⟩ hstep
    cases hat : query[s.i]? with
    | none =>
      -- At the end of the query there is nothing that could not fit.
      refine absurd ?_ hnot
      unfold RestFits
      rw [drop_eq_nil_of_le (getElem?_eq_none_iff.mp hat)]
      trivial
    | some c =>
      have hround := round_step alloc heap hsizes hshort hbase hat
      rw [hstep] at hround
      cases hround with
      | noMemory halloc hzero => exact .inr ⟨rfl, _, halloc⟩
      | fault hnot => exact .inl ⟨_, rfl⟩

/-- How the loop ends that starts with placeholder `vcnt` and whose query fits. -/
inductive EndsWell (alloc : ℕ → Bool) (loop : Loop) (query : Bytes) (vcnt : ℕ) : Outcome → Prop
  | built {buf : Bytes} (htext : (∀ v, loop.piece v ≠ some .nothing) →
        buf.take ((expand loop query vcnt).length + 1) = expand loop query vcnt ++ [0]) :
      EndsWell alloc loop query vcnt (.built buf (vcnt + query.count 63))
  | noMemory {n : ℕ} (halloc : alloc n = false)
      (hzero : n = 0 → ∃ v, loop.piece v = some .nothing) : EndsWell alloc loop query vcnt .noMemory

/-- An allocator that only refuses to allocate nothing is never in the way of a text. -/
theorem EndsWell.built_of_alloc {o : Outcome} (h : EndsWell alloc loop query vcnt o)
    (halloc : ∀ n, 0 < n → alloc n = true) (hpieces : ∀ v, loop.piece v ≠ some .nothing) :
    ∃ buf, o = .built buf (vcnt + query.count 63) ∧
      buf.take ((expand loop query vcnt).length + 1) = expand loop query vcnt ++ [0] := by
  cases h with
  | @built buf htext => exact ⟨buf, rfl, htext hpieces⟩
  | @noMemory n hfail hzero =>
    rcases Nat.eq_zero_or_pos n with hn | hn
    · obtain ⟨v, hv⟩ := hzero hn
      exact absurd hv (hpieces v)
    · rw [halloc n hn] at hfail
      cases hfail

/-- What the loop keeps: the bytes in the buffer and what is left of the query make the text. -/
structure OnTheWay (loop : Loop) (query : Bytes) (vcnt : ℕ) (s : State) : Prop where
  base : Base loop query s
  fits : RestFits loop query s
  count : s.vcnt + (query.drop s.i).count 63 = vcnt + query.count 63
  text : (∀ v, loop.piece v ≠ some .nothing) →
    (s.buf.getD []).take s.j ++ expand loop (query.drop s.i) s.vcnt = expand loop query vcnt

/-- A round lowers this: first the bytes that are left, then what the buffer can still grow. -/
def roundsLeft (query : Bytes) (s : State) : ℕ :=
  (query.length - s.i) * (2 ^ 31 + 2)
    + (if s.needRealloc = true then 2 ^ 31 - s.buflen else 2 ^ 31 + 1)

theorem finish_endsWell (h : OnTheWay loop query vcnt s) (hat : query[s.i]? = none) :
    EndsWell alloc loop query vcnt (finish s) := by
  have hdrop : query.drop s.i = [] := drop_eq_nil_of_le (getElem?_eq_none_iff.mp hat)
  have hready : 0 < s.buflen ∧ s.j < s.buflen := by
    cases h.base.mode with
    | fresh hat' =>
      rw [hat] at hat'
      cases hat'
    | ready hsize hj hfirst hneed => exact ⟨by omega, hj⟩
    | retry hat' | regrow hat' => cases hat.symm.trans hat'
  have hbuf := h.base.buf
  have hcount := h.count
  have htext := h.text
  rw [hdrop, count_nil, Nat.add_zero] at hcount
  rw [hdrop] at htext
  unfold BufOk at hbuf
  unfold finish
  cases hmem : s.buf with
  | none =>
    rw [hmem] at hbuf
    exact absurd hbuf.symm (Nat.ne_of_gt hready.1)
  | some mem =>
    rw [hmem] at hbuf htext
    simp only [Option.getD_some] at hbuf htext
    obtain ⟨mem', hwrite, -⟩ := exists_writeAt (show s.j + [(0 : UInt8)].length ≤ mem.length by
      rw [length_singleton]
      omega)
    simp only [hwrite]
    rw [hcount]
    refine .built fun hall => ?_
    have hfront := htext hall
    rw [expand, append_nil] at hfront
    have hlen : (expand loop query vcnt).length = s.j := by
      rw [← hfront, length_take]
      omega
    have hwritten := take_writeAt_append hwrite
    rw [hfront] at hwritten
    rw [hlen]
    exact hwritten

/-- Each round of a query that fits goes on with less to do, or ends well. -/
theorem round_onTheWay (hsizes : SizeOk loop.size) (hshort : query.length < 2 ^ 32)
    (h : OnTheWay loop query vcnt s) :
    (∃ o, step alloc heap loop query s = .inr o ∧ EndsWell alloc loop query vcnt o) ∨
      ∃ s', step alloc heap loop query s = .inl s' ∧ OnTheWay loop query vcnt s' ∧
        roundsLeft query s' < roundsLeft query s := by
  cases hat : query[s.i]? with
  | none =>
    refine .inl ⟨finish s, ?_, finish_endsWell h hat⟩
    simp only [step, hat]
  | some c =>
    have hitem := h.fits.item hat
    have hlt := (List.getElem?_eq_some_iff.mp hat).1
    have hround := round_step alloc heap hsizes hshort h.base hat
    generalize hstep : step alloc heap loop query s = next at hround
    cases hround with
    | noMemory halloc hzero =>
      exact .inl ⟨_, rfl, .noMemory halloc fun hn => ⟨s.vcnt, hzero hn hitem⟩⟩
    | fault hnot => exact absurd hitem hnot
    | @again s' hsame hbuf hmode hneed hgrown htext =>
      refine .inr ⟨s', rfl, ⟨?_, ?_, ?_, fun hall => ?_⟩, ?_⟩
      · exact h.base.again hsame.1 hsame.2.2 hbuf hmode
      · exact (RestFits.congr hsame).mpr h.fits
      · rw [hsame.1, hsame.2.2]
        exact h.count
      · rw [hsame.1, hsame.2.1, hsame.2.2, htext (hall s.vcnt)]
        exact h.text hall
      · obtain ⟨hmax, hmore⟩ := hgrown hitem
        unfold roundsLeft
        rw [hsame.1, if_pos hneed]
        by_cases hold : s.needRealloc = true
        · have hgrow := hmore hold
          rw [if_pos hold]
          omega
        · rw [if_neg hold]
          omega
    | @done s' hfits hi hj hvcnt hbuf hmode htext =>
      refine .inr ⟨s', rfl, ⟨?_, ?_, ?_, fun hall => ?_⟩, ?_⟩
      · exact h.base.done hat hi hvcnt hbuf hmode
      · exact ((restFits_iff hat hi hj hvcnt).mp h.fits).2
      · have hcount := h.count
        rw [drop_of_getElem? hat, ← hi] at hcount
        rw [hvcnt, ← hcount]
        by_cases hc : c = 63
        · subst hc
          rw [count_cons_self, nextVcnt, if_neg (by simp)]
          omega
        · rw [count_cons_of_ne hc, nextVcnt, if_pos hc]
      · have hold := h.text hall
        rw [drop_of_getElem? hat, ← hi, expand, ← append_assoc] at hold
        rw [htext (hall s.vcnt), hvcnt]
        exact hold
      · unfold roundsLeft
        split <;> omega

/-- **A query that fits is built**, unless the allocator fails. -/
theorem halts_of_fits (alloc : ℕ → Bool) (heap : ℕ → UInt8) (hsizes : SizeOk loop.size)
    (hquery : query ≠ []) (hcount : vcnt + query.length < 2 ^ 32) (hfits : Fits loop query vcnt 0) :
    ∃ o, Halts (step alloc heap loop query) (start vcnt) o ∧ EndsWell alloc loop query vcnt o := by
  have hstart : OnTheWay loop query vcnt (start vcnt) :=
    ⟨base_start loop hquery hcount, hfits, rfl, fun _ => rfl⟩
  exact halts_of_measure (roundsLeft query)
    (fun s hs => round_onTheWay hsizes (by omega) hs) hstart

end Sysbench.QueryBuffer
