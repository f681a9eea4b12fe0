/-
Sizes as `sb_print_value_size` prints them.

The numbers are those of any ordered field and the arithmetic is exact; `%.5g` is an argument.
`sizemods` is a string, so `sizeof(sizemods)` counts its NUL.
-/
import Mathlib.Algebra.Field.Defs
import Sysbench.Model.Options

namespace Sysbench.Options

variable {K : Type} [Field K] [LinearOrder K]

/-- The loop of `sb_print_value_size` from index `i` on, with at most `left` rounds to go -/
def printSizeLoop : (left i : ℕ) → (value : K) → ℕ × K
  | 0, i, value => (i, value)
  | left + 1, i, value =>
    if 1024 ≤ value then printSizeLoop left (i + 1) (value / 1024) else (i, value)

/-- The number that `sb_print_value_size` prints, and the index into `sizemods` of the letter
behind it -/
def printedSize (value : K) : K × Option ℕ :=
  let (i, value) := printSizeLoop (sizemods.length + 1) 0 value
  if 0 < i then (value, some (i - 1)) else (value, none)

/-- `sb_print_value_size`: the text that it leaves in the buffer -/
def sbPrintValueSize (format : K → Text) (buflen : ℕ) (value : K) : Text :=
  match printedSize value with
  | (x, none) => (format x).take (buflen - 1)
  | (x, some k) => (format x ++ [(sizemods ++ ['\x00']).getD k '\x00', 'i']).take (buflen - 1)

end Sysbench.Options
