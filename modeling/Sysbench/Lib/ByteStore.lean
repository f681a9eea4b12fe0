/-
Files as lists of bytes, and little-endian numbers in them.

`pread` and `pwrite` are the positional reads and writes of a store that returns what was
written last.  Two rules carry every argument about them: a range just written reads back,
and a range that does not meet it reads as before.
-/
import Mathlib.Algebra.Group.Nat.Defs
import Mathlib.Data.List.Basic

namespace ByteStore

open List

/-! ### Positional reads and writes -/

section Store

variable {α : Type}

/-- At most `n` elements from offset `off` on. -/
def pread (file : List α) (off n : ℕ) : List α :=
  (file.drop off).take n

/-- Store `bs` at offset `off`; a gap behind the end is filled with `zero`. -/
def pwrite (zero : α) (file : List α) (off : ℕ) (bs : List α) : List α :=
  file.take off ++ List.replicate (off - file.length) zero ++ bs ++ file.drop (off + bs.length)

variable {zero : α} {file bs : List α} {off : ℕ}

theorem length_pread (file : List α) (off n : ℕ) :
    (pread file off n).length = min n (file.length - off) := by
  rw [pread, length_take, length_drop]

theorem length_pwrite (hfit : off + bs.length ≤ file.length) :
    (pwrite zero file off bs).length = file.length := by
  simp only [pwrite, length_append, length_take, length_replicate,
    length_drop]
  omega

theorem getElem?_pwrite (hfit : off + bs.length ≤ file.length) (i : ℕ) :
    (pwrite zero file off bs)[i]?
      = if off ≤ i ∧ i < off + bs.length then bs[i - off]? else file[i]? := by
  have hgap : off - file.length = 0 := by omega
  have hfront : (file.take off).length = off := by
    rw [length_take]
    omega
  rw [pwrite, hgap, replicate_zero, append_nil, append_assoc]
  by_cases hlow : i < off
  · rw [getElem?_append_left (by omega), getElem?_take_of_lt hlow,
      if_neg (by omega)]
  · rw [getElem?_append_right (by omega), hfront]
    by_cases hmid : i < off + bs.length
    · rw [getElem?_append_left (by omega), if_pos (by omega)]
    · rw [getElem?_append_right (by omega), getElem?_drop, if_neg (by omega)]
      exact congrArg (file[·]?) (by omega)

theorem getElem?_pread (file : List α) (off n i : ℕ) :
    (pread file off n)[i]? = if i < n then file[off + i]? else none := by
  rw [pread, getElem?_take, getElem?_drop]

theorem pread_pwrite (hfit : off + bs.length ≤ file.length) :
    pread (pwrite zero file off bs) off bs.length = bs := by
  apply ext_getElem?
  intro i
  rw [getElem?_pread]
  by_cases hi : i < bs.length
  · rw [if_pos hi, getElem?_pwrite hfit, if_pos (by omega)]
    exact congrArg (bs[·]?) (by omega)
  · rw [if_neg hi, getElem?_eq_none (by omega)]

theorem pread_pwrite_of_disjoint (hfit : off + bs.length ≤ file.length) {a n : ℕ}
    (h : a + n ≤ off ∨ off + bs.length ≤ a) :
    pread (pwrite zero file off bs) a n = pread file a n := by
  apply ext_getElem?
  intro i
  rw [getElem?_pread, getElem?_pread]
  by_cases hi : i < n
  · rw [if_pos hi, if_pos hi, getElem?_pwrite hfit, if_neg (by omega)]
  · rw [if_neg hi, if_neg hi]

theorem pread_append_left {a n : ℕ} (h : a + n ≤ file.length) :
    pread (file ++ bs) a n = pread file a n := by
  rw [pread, pread, drop_append_of_le_length (by omega),
    take_append_of_le_length (by rw [length_drop]; omega)]

theorem pread_append_right : pread (file ++ bs) file.length bs.length = bs := by
  rw [pread, drop_left, take_length]

end Store

/-! ### Little-endian numbers -/

/-- The number `x` in `k` bytes. -/
def le : ℕ → ℕ → List UInt8
  | 0, _ => []
  | k + 1, x => UInt8.ofNat x :: le k (x / 256)

/-- The number that stands in some bytes. -/
def leVal : List UInt8 → ℕ
  | [] => 0
  | b :: bs => b.toNat + 256 * leVal bs

@[simp] theorem length_le (k x : ℕ) : (le k x).length = k := by
  induction k generalizing x with
  | zero => rfl
  | succ k ih => rw [le, length_cons, ih]

theorem leVal_le (k x : ℕ) : leVal (le k x) = x % 256 ^ k := by
  induction k generalizing x with
  | zero => rw [le, leVal, Nat.pow_zero, Nat.mod_one]
  | succ k ih =>
    have hbyte : (UInt8.ofNat x).toNat = x % 256 := UInt8.toNat_ofNat'
    rw [le, leVal, ih, hbyte, Nat.pow_succ', Nat.mod_mul]

end ByteStore
