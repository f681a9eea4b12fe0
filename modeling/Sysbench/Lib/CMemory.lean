/-
Memory as a list of bytes, and C strings in it.

`writeAt` stores a run of bytes at an offset and refuses to go past the end of the
object.  Reading back is by `take`: a write leaves what is in front of it and ends
with the bytes written.  A C string is what stands before the first NUL.
-/
import Mathlib.Algebra.Group.Nat.Defs
import Mathlib.Data.List.TakeWhile

namespace CMemory

open List

section Write

variable {α : Type}

/-- Store `bs` at offset `off` of the object `mem`. -/
def writeAt (mem : List α) (off : ℕ) (bs : List α) : Option (List α) :=
  if off + bs.length ≤ mem.length then
    some (mem.take off ++ bs ++ mem.drop (off + bs.length))
  else none

variable {mem mem' bs : List α} {off : ℕ}

theorem writeAt_eq_some (h : writeAt mem off bs = some mem') :
    off + bs.length ≤ mem.length ∧
      mem' = mem.take off ++ bs ++ mem.drop (off + bs.length) := by
  unfold writeAt at h
  by_cases hfit : off + bs.length ≤ mem.length
  · rw [if_pos hfit, Option.some.injEq] at h
    exact ⟨hfit, h.symm⟩
  · rw [if_neg hfit] at h
    cases h

theorem length_writeAt (h : writeAt mem off bs = some mem') : mem'.length = mem.length := by
  obtain ⟨hfit, rfl⟩ := writeAt_eq_some h
  simp only [length_append, length_take, length_drop]
  omega

theorem exists_writeAt (h : off + bs.length ≤ mem.length) :
    ∃ mem', writeAt mem off bs = some mem' ∧ mem'.length = mem.length := by
  have hwrite : writeAt mem off bs = some (mem.take off ++ bs ++ mem.drop (off + bs.length)) :=
    if_pos h
  exact ⟨_, hwrite, length_writeAt hwrite⟩

theorem take_writeAt_append (h : writeAt mem off bs = some mem') :
    mem'.take (off + bs.length) = mem.take off ++ bs := by
  obtain ⟨hfit, rfl⟩ := writeAt_eq_some h
  have hlen : (mem.take off ++ bs).length = off + bs.length := by
    rw [length_append, length_take]
    omega
  rw [← hlen, take_left]

theorem writeAt_writeAt (mem bs bs' : List α) (off : ℕ) :
    (writeAt mem off bs).bind (fun m => writeAt m (off + bs.length) bs')
      = writeAt mem off (bs ++ bs') := by
  by_cases hfit : off + (bs ++ bs').length ≤ mem.length
  · have hlen := hfit
    rw [length_append] at hlen
    obtain ⟨m, hm, hsize⟩ := exists_writeAt (show off + bs.length ≤ mem.length by omega)
    have hfront := take_writeAt_append hm
    have hback : m.drop (off + bs.length + bs'.length) = mem.drop (off + (bs ++ bs').length) := by
      obtain ⟨-, rfl⟩ := writeAt_eq_some hm
      have hoff : (mem.take off ++ bs).length = off + bs.length := by
        rw [length_append, length_take]
        omega
      rw [← hoff, drop_append, drop_eq_nil_of_le (by omega), nil_append,
        drop_drop, hoff, length_append]
      exact congrArg (mem.drop ·) (by omega)
    rw [hm, Option.bind_some, writeAt, if_pos (by omega), hfront, hback, writeAt, if_pos hfit,
      append_assoc (mem.take off) bs bs']
  · rw [length_append] at hfit
    have hnone : writeAt mem off (bs ++ bs') = none := by
      rw [writeAt, if_neg (by rw [length_append]; exact hfit)]
    rw [hnone, Option.bind_eq_none_iff]
    intro m hm
    rw [writeAt, if_neg (by rw [length_writeAt hm]; omega)]

end Write

/-! ### C strings -/

/-- The C string that starts at the beginning of `mem`. -/
def cstr (mem : List UInt8) : List UInt8 := mem.takeWhile (· ≠ 0)

theorem cstr_of_no_nul {text : List UInt8} (h : (0 : UInt8) ∉ text) : cstr text = text := by
  unfold cstr
  rw [takeWhile_eq_self_iff]
  intro b hb
  have hne : b ≠ 0 := fun hc => h (hc ▸ hb)
  simpa using hne

variable {mem : List UInt8}

theorem cstr_of_take {text : List UInt8} {n : ℕ} (h : (0 : UInt8) ∉ text)
    (hmem : mem.take n = text ++ [0]) : cstr mem = text := by
  have hsplit : mem = text ++ 0 :: mem.drop n := by
    have hall := (take_append_drop n mem).symm
    rw [hmem, append_assoc] at hall
    exact hall
  unfold cstr
  rw [hsplit, takeWhile_append_of_pos]
  · simp
  · intro b hb
    have hne : b ≠ 0 := fun hc => h (hc ▸ hb)
    simpa using hne

/-- `strcpy` to offset `off`: the string at `src` and its terminator. -/
def strcpy (mem : List UInt8) (off : ℕ) (src : List UInt8) : Option (List UInt8) :=
  writeAt mem off (cstr src ++ [0])

theorem exists_strcpy {src : List UInt8} {off : ℕ} (h : off + src.length + 1 ≤ mem.length) :
    ∃ mem', strcpy mem off src = some mem' ∧ mem'.length = mem.length := by
  have hcut : (cstr src).length ≤ src.length := (takeWhile_sublist _).length_le
  refine exists_writeAt ?_
  rw [length_append, length_singleton]
  omega

/-- Does `strcmp` find the strings at `a` and `b` equal?  None where it would read on behind
the end of one. -/
def strcmp : List UInt8 → List UInt8 → Option Bool
  | a :: as, b :: bs => if a ≠ b then some false else if a = 0 then some true else strcmp as bs
  | _, _ => none

variable {a b : List UInt8}

theorem strcmp_eq (ha : (0 : UInt8) ∈ a) (hb : (0 : UInt8) ∈ b) :
    strcmp a b = some (decide (cstr a = cstr b)) := by
  induction a generalizing b with
  | nil => exact absurd ha (by simp)
  | cons x as ih =>
    cases b with
    | nil => exact absurd hb (by simp)
    | cons y bs =>
      unfold strcmp
      by_cases hxy : x = y
      · subst hxy
        by_cases hx : x = 0
        · subst hx
          simp [cstr]
        · rw [if_neg hx, ih (mem_of_ne_of_mem (Ne.symm hx) ha)
            (mem_of_ne_of_mem (Ne.symm hx) hb)]
          simp [cstr, hx]
      · rw [if_pos hxy]
        by_cases hx : x = 0
        · subst hx
          simp [cstr, Ne.symm hxy]
        · by_cases hy : y = 0
          · subst hy
            simp [cstr, hxy]
          · simp [cstr, hx, hy, hxy]

end CMemory
