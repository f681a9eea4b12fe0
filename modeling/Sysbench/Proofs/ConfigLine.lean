/-
The line scanner stays on its line, and comes to an end.

The NULs that the scanner writes fall in front of the cursor, so what is left of the line is as
`fgets` has read it (`Inside`).  A step takes a character from it or changes the loop.  It goes
from `outer` to `bare` only in front of a character and back only behind one, so `measure` goes
down, and each round of the outer loop has a character of its own.  What has been added and what
`scanValues` finds from the cursor on stay the same together, so the loop finds what
`scanValues` says.
-/
import Sysbench.Lib.Machine
import Sysbench.Model.ConfigLine
import Sysbench.Proofs.OptionsConfig

namespace Sysbench.Options

open List Machine

/-- The round in which a value begins is counted before its first character is taken. -/
def LinePhase.ahead : LinePhase → ℕ
  | .bare 0 => 1
  | _ => 0

/-- Where `scanValues` is on the line. -/
def LineState.scan (text : Text) (s : LineState) : Scan :=
  match s.phase with
  | .outer => .between
  | .quoted qc optlen => .quoted qc ((text.drop s.tmp).take optlen)
  | .behind => .behind
  | .bare optlen => .bare ((text.drop s.tmp).take optlen)

/-- The values added so far and those from the cursor on. -/
def LineState.found (text : Text) (s : LineState) : List Text × Bool :=
  let left := scanValues (s.scan text) (text.drop s.cursor)
  (s.values ++ left.1, left.2)

/-- From `tmp` on, the buffer holds what is left of the line. -/
structure Inside (text rest : Text) (found : List Text × Bool) (s : LineState) : Prop where
  buf : s.buf.drop s.tmp = text.drop s.tmp ++ nul :: rest
  cursor_le : s.cursor ≤ text.length
  rounds_le : s.rounds ≤ s.cursor + s.phase.ahead
  fresh : s.phase = .bare 0 → s.cursor < text.length
  found_eq : s.found text = found

/-- The three ends of the loop. -/
structure Ends (text : Text) (found : List Text × Bool) (o : LineEnd × LineState) : Prop where
  rounds_le : o.2.rounds ≤ text.length
  place : match o.1 with
    | .nul => o.2.tmp = text.length
    | .comment => text[o.2.tmp]? = some '#'
    | .unexpectedEol => o.2.cursor = text.length
    | .outOfBounds => False
  values : o.2.values = found.1
  closed : found.2 = false ↔ o.1 = .unexpectedEol

def LinePhase.weight : LinePhase → ℕ
  | .bare 0 => 1
  | .outer => 2
  | .quoted _ _ | .behind | .bare _ => 3

def measure (text : Text) (s : LineState) : ℕ := 3 * (text.length - s.cursor) + s.phase.weight

/-- A step leads on inside the line, or it is the last. -/
def Goes (text rest : Text) (found : List Text × Bool) (s : LineState) : Prop :=
  (∃ o, lineStep s = .inr o ∧ Ends text found o) ∨
    ∃ s', lineStep s = .inl s' ∧ Inside text rest found s' ∧ measure text s' < measure text s

variable {text rest : Text} {found : List Text × Bool} {s s' : LineState}

/-- `add_value` copies what is in front of the NUL. -/
theorem takeWhile_nul {a t : Text} (ha : nul ∉ a) : (a ++ nul :: t).takeWhile (· ≠ nul) = a := by
  have hall : ∀ c ∈ a, decide (c ≠ nul) = true := fun c hc =>
    decide_eq_true fun heq => ha (heq ▸ hc)
  rw [takeWhile_append_of_pos hall]
  simp

theorem found_congr {values : List Text} {a b : List Text × Bool} (h : a = b) :
    (values ++ a.1, a.2) = (values ++ b.1, b.2) := by
  rw [h]

namespace Inside

theorem drop_cursor (h : Inside text rest found s) :
    s.buf.drop s.cursor = text.drop s.cursor ++ nul :: rest := by
  have hle := h.cursor_le
  rw [LineState.cursor] at hle ⊢
  rw [← drop_drop, h.buf, drop_append_of_le_length (by rw [length_drop]; omega), drop_drop]

theorem drop_next (h : Inside text rest found s) (hlt : s.cursor < text.length) :
    s.buf.drop (s.cursor + 1) = text.drop (s.cursor + 1) ++ nul :: rest := by
  rw [← drop_drop, h.drop_cursor, drop_eq_getElem_cons hlt]
  rfl

theorem getElem?_nul (h : Inside text rest found s) (hend : s.cursor = text.length) :
    s.buf[s.cursor]? = some nul := by
  rw [← head?_drop, h.drop_cursor, hend, drop_length]
  rfl

theorem getElem?_char (h : Inside text rest found s) (hlt : s.cursor < text.length) :
    s.buf[s.cursor]? = some text[s.cursor] := by
  rw [← head?_drop, h.drop_cursor, drop_eq_getElem_cons hlt]
  rfl

/-- The scanner moves on by one character, and has not touched those behind it. -/
theorem next (h : Inside text rest found s) (hlt : s.cursor < text.length)
    (hbuf : s'.buf.drop s'.tmp = text.drop s'.tmp ++ nul :: rest)
    (hcursor : s'.cursor = s.cursor + 1) (hrounds : s'.rounds ≤ s.cursor + 1)
    (hfresh : s'.phase ≠ .bare 0) (hfound : s'.found text = s.found text) :
    Inside text rest found s' ∧ measure text s' < measure text s := by
  refine ⟨⟨hbuf, by omega, by omega, fun hc => absurd hc hfresh, hfound.trans h.found_eq⟩, ?_⟩
  have hpos : 1 ≤ s.phase.weight := by
    unfold LinePhase.weight
    split <;> decide
  have hle : s'.phase.weight ≤ 3 := by
    unfold LinePhase.weight
    split <;> decide
  rw [measure, measure]
  omega

/-- A value ends in front of a character, which is overwritten. -/
theorem cut {p : LinePhase} (h : Inside text rest found s) (htext : nul ∉ text)
    (hlt : s.cursor < text.length)
    (hp : p.offset = 0) (hrounds : s.rounds ≤ s.cursor + 1) (hfresh : p ≠ .bare 0)
    (hfound : scanValues (s.scan text) (text.drop s.cursor)
      = ((text.drop s.tmp).take s.phase.offset ::
          (scanValues ((s.cut p).scan text) (text.drop (s.cursor + 1))).1,
        (scanValues ((s.cut p).scan text) (text.drop (s.cursor + 1))).2)) :
    Inside text rest found (s.cut p) ∧ measure text (s.cut p) < measure text s := by
  have hcursor : (s.cut p).cursor = s.cursor + 1 := by
    show s.cursor + 1 + p.offset = s.cursor + 1
    rw [hp, add_zero]
  have hvalue : ((s.buf.set s.cursor nul).drop s.tmp).takeWhile (· ≠ nul)
      = (text.drop s.tmp).take s.phase.offset := by
    rw [LineState.cursor] at hlt ⊢
    rw [drop_set, if_neg (by omega), h.buf, Nat.add_sub_cancel_left, set_eq_take_append_cons_drop,
      if_pos (by simp; omega), take_append_of_le_length (by simp; omega)]
    exact takeWhile_nul fun hc => htext (mem_of_mem_drop (mem_of_mem_take hc))
  refine h.next hlt ?_ hcursor hrounds hfresh ?_
  · show (s.buf.set s.cursor nul).drop (s.cursor + 1) = _
    rw [drop_set_of_lt (Nat.lt_succ_self _), h.drop_next hlt]
    rfl
  · rw [LineState.found, LineState.found, hfound, hcursor]
    show (s.values ++ [_] ++ _, _) = _
    rw [hvalue, append_assoc]
    rfl

theorem goes_nul (h : Inside text rest found s) (htext : nul ∉ text)
    (hend : s.cursor = text.length) : Goes text rest found s := by
  have hstep : lineStep s = atNul s := by
    rw [lineStep, h.getElem?_nul hend]
    exact if_pos rfl
  have hrounds := h.rounds_le
  have hfound := h.found_eq
  have hbuf := h.drop_cursor
  have hnil : text.drop s.cursor = [] := by rw [hend, drop_length]
  rw [hend] at hrounds
  rw [LineState.found, hnil] at hfound
  rw [Goes, hstep]
  obtain ⟨buf, tmp, phase, values, rounds⟩ := s
  subst hfound
  cases phase with
  | outer => exact .inl ⟨_, rfl, hrounds, hend, (append_nil _).symm, nofun, nofun⟩
  | quoted _ _ =>
    exact .inl ⟨_, rfl, hrounds, hend, (append_nil _).symm, fun _ => rfl, fun _ => rfl⟩
  | behind =>
    refine .inr ⟨_, rfl, ⟨h.buf, h.cursor_le, h.rounds_le, nofun, ?_⟩, Nat.lt_succ_self _⟩
    exact found_congr (congrArg (scanValues .between) hnil)
  | bare optlen =>
    -- A value is ended by the NUL only behind a character.
    cases optlen with
    | zero => exact absurd hend (h.fresh rfl).ne
    | succ k =>
      refine .inr ⟨_, rfl, ⟨hbuf, h.cursor_le, h.rounds_le, nofun, ?_⟩, Nat.lt_succ_self _⟩
      have hvalue : (buf.drop tmp).takeWhile (· ≠ nul) = (text.drop tmp).take (k + 1) := by
        have hlen : tmp + (k + 1) = text.length := hend
        rw [show buf.drop tmp = _ from h.buf, takeWhile_nul fun hc => htext (mem_of_mem_drop hc),
          take_of_length_le (by rw [length_drop]; omega)]
      show (values ++ [_] ++ (scanValues .between (text.drop (tmp + (k + 1)))).1,
        (scanValues .between (text.drop (tmp + (k + 1)))).2) = _
      rw [hvalue, show text.drop (tmp + (k + 1)) = [] from hnil, append_assoc]
      rfl

theorem goes_char (h : Inside text rest found s) (htext : nul ∉ text)
    (hlt : s.cursor < text.length) : Goes text rest found s := by
  have hstep : lineStep s = atChar s text[s.cursor] := by
    rw [lineStep, h.getElem?_char hlt]
    exact if_neg fun hc : text[s.cursor] = nul => htext (hc ▸ getElem_mem hlt)
  have hrounds := h.rounds_le
  have hdrop := drop_eq_getElem_cons hlt
  have hnext := h.drop_next hlt
  have hscan (q : Scan) := congrArg (scanValues q) hdrop
  have htake : (text.drop s.tmp).take (s.phase.offset + 1)
      = (text.drop s.tmp).take s.phase.offset ++ [text[s.cursor]] := by
    rw [take_add_one, getElem?_drop]
    exact congrArg _ (congrArg _ (getElem?_eq_getElem hlt))
  rw [Goes, hstep]
  obtain ⟨buf, tmp, phase, values, rounds⟩ := s
  cases phase with
  | outer =>
    have hmore : rounds + 1 ≤ tmp + 0 + 1 := Nat.succ_le_succ hrounds
    simp only [atChar]
    split
    · rename_i hspace
      exact .inr ⟨_, rfl, h.next hlt hnext rfl hmore (by simp)
        (found_congr ((hscan .between).trans (if_pos hspace)).symm)⟩
    · rename_i hspace
      split
      · rename_i hcomment
        have hstop := (hscan .between).trans ((if_neg hspace).trans (if_pos hcomment))
        obtain rfl := h.found_eq
        refine .inl ⟨_, rfl, Nat.le_trans hmore hlt, ?_, ?_, ?_⟩
        · exact List.getElem?_eq_some_iff.mpr ⟨hlt, hcomment⟩
        · show values = values ++ (scanValues .between _).1
          rw [hstop, append_nil]
        · show (scanValues .between _).2 = false ↔ _
          rw [hstop]
          simp
      · rename_i hcomment
        split
        · rename_i hquote
          have hopens := (hscan .between).trans
            ((if_neg hspace).trans ((if_neg hcomment).trans (if_pos hquote)))
          exact .inr ⟨_, rfl, h.next hlt hnext rfl hmore (by simp) (found_congr hopens.symm)⟩
        · -- The scanner stays where it is; the character is taken in the next step.
          rename_i hquote
          refine .inr ⟨_, rfl, ⟨h.buf, h.cursor_le, hmore, fun _ => hlt, ?_⟩, Nat.lt_succ_self _⟩
          refine .trans (found_congr ?_) h.found_eq
          show scanValues (.bare []) (text.drop tmp) = scanValues .between (text.drop tmp)
          rw [show text.drop tmp = _ from hdrop]
          simp [scanValues, hspace, hcomment, hquote]
  | quoted qc optlen =>
    have hless : rounds ≤ tmp + optlen + 1 := Nat.le_succ_of_le hrounds
    simp only [atChar]
    split
    · rename_i hquote
      exact .inr ⟨_, rfl, h.cut htext hlt rfl hless (by simp) ((hscan _).trans (if_pos hquote))⟩
    · rename_i hquote
      refine .inr ⟨_, rfl, h.next hlt h.buf rfl hless (by simp) (found_congr ?_)⟩
      exact (congrArg (fun a => scanValues (.quoted qc a) _) htake).trans
        ((hscan (.quoted qc _)).trans (if_neg hquote)).symm
  | behind =>
    have hless : rounds ≤ tmp + 0 + 1 := Nat.le_succ_of_le hrounds
    simp only [atChar]
    split
    · rename_i hcomma
      exact .inr ⟨_, rfl, h.next hlt hnext rfl hless (by simp)
        (found_congr ((hscan .behind).trans (if_pos hcomma)).symm)⟩
    · rename_i hcomma
      exact .inr ⟨_, rfl, h.next hlt hnext rfl hless (by simp)
        (found_congr ((hscan .behind).trans (if_neg hcomma)).symm)⟩
  | bare optlen =>
    have hless : rounds ≤ tmp + optlen + 1 := by
      refine Nat.le_trans hrounds (Nat.add_le_add_left ?_ _)
      unfold LinePhase.ahead
      split <;> decide
    simp only [atChar]
    split
    · rename_i hsep
      exact .inr ⟨_, rfl, h.cut htext hlt rfl hless (by simp) ((hscan _).trans (if_pos hsep))⟩
    · rename_i hsep
      refine .inr ⟨_, rfl, h.next hlt h.buf rfl hless (by simp) (found_congr ?_)⟩
      exact (congrArg (fun a => scanValues (.bare a) _) htake).trans
        ((hscan (.bare _)).trans (if_neg hsep)).symm

theorem goes (htext : nul ∉ text) (h : Inside text rest found s) : Goes text rest found s := by
  rcases h.cursor_le.eq_or_lt with hend | hlt
  · exact h.goes_nul htext hend
  · exact h.goes_char htext hlt

theorem run (htext : nul ∉ text) (h : Inside text rest found s)
    (hrun : Relation.ReflTransGen (fun s s' => lineStep s = .inl s') s s') :
    Inside text rest found s' := by
  induction hrun with
  | refl => exact h
  | tail _ hstep ih =>
    rcases ih.goes htext with ⟨o, hstop, -⟩ | ⟨s'', hgo, hs'', -⟩
    · cases hstop.symm.trans hstep
    · cases hgo.symm.trans hstep
      exact hs''

theorem bounds (h : Inside text rest found s) :
    s.tmp ≤ text.length ∧ s.cursor ≤ text.length ∧ s.rounds ≤ text.length := by
  have htmp : s.tmp ≤ s.cursor := Nat.le_add_right _ _
  refine ⟨htmp.trans h.cursor_le, h.cursor_le, h.rounds_le.trans ?_⟩
  unfold LinePhase.ahead
  split
  · rename_i hphase
    exact h.fresh hphase
  · exact h.cursor_le

end Inside

/-- In front of the loop: the delimiter has become a NUL, and `tmp` is behind it. -/
theorem inside_startLine (h : startLine (text ++ nul :: rest) = some s) :
    Inside text rest (s.found text) s := by
  rw [startLine] at h
  generalize hk : ((text ++ nul :: rest).takeWhile fun c => c ≠ '=' ∧ c ≠ nul).length = k at h
  split at h
  · rename_i hdelimiter
    have hle : k ≤ text.length := by
      rw [← hk, takeWhile_append]
      split
      · simp
      · exact (takeWhile_sublist _).length_le
    have hlt : k < text.length := by
      refine hle.lt_of_ne fun hend => ?_
      rw [hend] at hdelimiter
      simp [nul] at hdelimiter
    cases h
    refine ⟨?_, hlt, Nat.zero_le _, nofun, rfl⟩
    show ((text ++ nul :: rest).set k nul).drop (k + 1) = text.drop (k + 1) ++ nul :: rest
    rw [drop_set_of_lt (Nat.lt_succ_self k), drop_append_of_le_length hlt]
  · cases h

/-- The loop finds what `readLine` stores, and gives up where it does. -/
theorem readLine_eq_scan (options : Registry) {name line : Text} (hname : '=' ∉ name)
    (htext : nul ∉ name ++ '=' :: line) (rest : Text) :
    ∃ s₀ how s ok, startLine (name ++ '=' :: line ++ nul :: rest) = some s₀ ∧
      Halts lineStep s₀ (how, s) ∧
      readLine options (name ++ '=' :: line)
        = (editOption options name fun opt => { opt with values := s.values }, ok) ∧
      (ok = false ↔ how = .unexpectedEol) := by
  have hall : ∀ c ∈ name, decide (c ≠ '=' ∧ c ≠ nul) = true := fun c hc =>
    decide_eq_true ⟨fun heq => hname (heq ▸ hc), fun heq => htext (heq ▸ mem_append_left _ hc)⟩
  have hspan : (name ++ '=' :: line ++ nul :: rest).takeWhile (fun c => c ≠ '=' ∧ c ≠ nul)
      = name := by
    rw [append_assoc, takeWhile_append_of_pos hall]
    simp
  obtain ⟨s₀, hstart, hfound⟩ : ∃ s₀, startLine (name ++ '=' :: line ++ nul :: rest) = some s₀ ∧
      s₀.found (name ++ '=' :: line) = scanValues .between line := by
    rw [startLine, hspan]
    refine ⟨_, if_pos (by simp), ?_⟩
    simp [LineState.found, LineState.scan, LineState.cursor, LinePhase.offset]
  obtain ⟨⟨how, s⟩, hhalts, -, -, hvalues, hclosed⟩ :=
    halts_of_measure (measure _) (fun _ => Inside.goes htext) (inside_startLine hstart)
  rw [hfound] at hvalues hclosed
  refine ⟨s₀, how, s, _, hstart, hhalts, ?_, hclosed⟩
  rw [readLine, span_equals hname, show s.values = _ from hvalues]

/-- **The line scanner is bounded.**  Whatever a line holds and whatever lies behind its
terminating NUL, `tmp` and `tmp + optlen` stay on the line and the loop is entered at most once
for each of its characters; and the loop ends at the NUL, at a comment or with an open quote. -/
theorem line_scan_bounded (text rest : Text) (htext : nul ∉ text) (s₀ : LineState)
    (hstart : startLine (text ++ nul :: rest) = some s₀) :
    (∀ s, Relation.ReflTransGen (fun s s' => lineStep s = .inl s') s₀ s →
      s.tmp ≤ text.length ∧ s.cursor ≤ text.length ∧ s.rounds ≤ text.length) ∧
    ∃ how s, Halts lineStep s₀ (how, s) ∧
      s.tmp ≤ text.length ∧ s.rounds ≤ text.length ∧
      match how with
      | .nul => s.tmp = text.length
      | .comment => text[s.tmp]? = some '#'
      | .unexpectedEol => s.cursor = text.length
      | .outOfBounds => False := by
  have hinside := inside_startLine hstart
  refine ⟨fun s hrun => (hinside.run htext hrun).bounds, ?_⟩
  obtain ⟨⟨how, s⟩, hhalts, hrounds, hplace, -, -⟩ :=
    halts_of_measure (measure text) (fun _ => Inside.goes htext) hinside
  refine ⟨how, s, hhalts, ?_, hrounds, hplace⟩
  cases how with
  | nul => exact hplace.le
  | comment => exact (List.getElem?_eq_some_iff.mp hplace).1.le
  | unexpectedEol => exact hplace ▸ Nat.le_add_right _ _
  | outOfBounds => exact hplace.elim

theorem commented_line_scanned :
    ∃ s₀, startLine ("a=1 # b".toList ++ [nul]) = some s₀ ∧
      ∃ how s, Halts lineStep s₀ (how, s) ∧ s.tmp ≤ 7 ∧ s.rounds ≤ 7 := by
  refine ⟨_, rfl, ?_⟩
  obtain ⟨-, how, s, hhalts, htmp, hrounds, -⟩ :=
    line_scan_bounded "a=1 # b".toList [] (by decide) _ rfl
  exact ⟨how, s, hhalts, htmp, hrounds⟩

end Sysbench.Options
