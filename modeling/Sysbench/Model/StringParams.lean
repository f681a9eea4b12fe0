/-
String parameters that are set from templates.

`sql_param.set_rand_str` of `sysbench.sql.lua` cuts the length of the template to the size of the
buffer, as `sql_param.set` does.  It then has `sb_rand_str` fill the buffer, which is given
the template and the buffer but no length, and writes until the template's NUL.  A Lua string is
followed by a NUL, and may hold others.  It has less than `2 ^ 31` bytes, so the index, an
`unsigned int`, does not wrap.
-/
import Sysbench.Lib.Runs
import Sysbench.Model.BindParams

namespace Sysbench.Bind

open CMemory

/-- The numbers that `sb_rand_uniform` may return, by its two arguments.  It computes in doubles,
and rounding can take it one behind the second argument, so the set is left open. -/
abbrev Uniform : Type :=
  UInt32 → UInt32 → Set UInt32

variable {uniform : Uniform}

/-- `sb_rand_str` writes behind the end of the buffer. -/
inductive RandStrFault where
  | overflow
  deriving DecidableEq

/-- What `sb_rand_str` writes for a byte of the template -/
def randStrByte (sbRandUniform : ∀ a b, uniform a b) (c : UInt8) : UInt8 :=
  if c = '#'.toUInt8 then (sbRandUniform '0'.val '9'.val).val.toUInt8
  else if c = '@'.toUInt8 then (sbRandUniform 'a'.val 'z'.val).val.toUInt8
  else c

/-- The loop of `sb_rand_str` from index `i` on.  `fmt` is the rest of the template, and
`draws i` is what `sb_rand_uniform` returns when it is called for byte `i`. -/
def randStrLoop (draws : ℕ → ∀ a b, uniform a b) (i : ℕ) (fmt buf : Bytes) :
    Except RandStrFault Bytes :=
  match fmt with
  | [] => .ok buf
  | c :: fmt =>
    if c = 0 then .ok buf
    else if i < buf.length then
      randStrLoop draws (i + 1) fmt (buf.set i (randStrByte (draws i) c))
    else .error .overflow

def sbRandStr (draws : ℕ → ∀ a b, uniform a b) (fmt buf : Bytes) : Except RandStrFault Bytes :=
  randStrLoop draws 0 fmt buf

theorem length_randStrLoop {draws : ℕ → ∀ a b, uniform a b} {i : ℕ} {fmt buf buf' : Bytes}
    (h : randStrLoop draws i fmt buf = .ok buf') : buf'.length = buf.length := by
  induction fmt generalizing i buf with
  | nil =>
    cases h
    rfl
  | cons c fmt ih =>
    unfold randStrLoop at h
    by_cases hc : c = 0
    · rw [if_pos hc] at h
      cases h
      rfl
    · rw [if_neg hc] at h
      by_cases hi : i < buf.length
      · rw [if_pos hi] at h
        rw [ih h, List.length_set]
      · rw [if_neg hi] at h
        cases h

/-- `sql_param.set_rand_str`, and whether it raises no error.  The length is cut, the template
that `sb_rand_str` is given is not. -/
def SqlParam.setRandStr (p : SqlParam) (fmt : Bytes) (draws : ℕ → ∀ a b, uniform a b) :
    Except RandStrFault (SqlParam × Bool) :=
  match hbuffer : p.buffer with
  | .varchar mem =>
    match hstr : sbRandStr draws fmt mem with
    | .error e => .error e
    | .ok mem' =>
      .ok ({ p with
        isNull := some false
        buffer := .varchar mem'
        dataLen := copiedLen p.maxLen fmt.length
        sized := by
          intro m h
          cases h
          exact ⟨(length_randStrLoop hstr).trans (p.sized mem hbuffer).1,
            (copiedLen_le p.maxLen fmt.length).2⟩ }, true)
  | _ => .ok ({ p with isNull := some false }, false)

/-- A call that gives a parameter a string -/
inductive StringCall (uniform : Uniform) where
  | set (value : Bytes)
  | setRandStr (fmt : Bytes) (draws : ℕ → ∀ a b, uniform a b)

def SqlParam.call (p : SqlParam) : StringCall uniform → Except RandStrFault (SqlParam × Bool)
  | .set value => .ok (p.set (.string value))
  | .setRandStr fmt draws => p.setRandStr fmt draws

end Sysbench.Bind
