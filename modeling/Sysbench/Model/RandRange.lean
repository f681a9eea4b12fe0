/-
The generators of `sb_rand.c` that return a number between two bounds, and the options they
are set up from.

They compute in `double`.  Here the numbers are those of any ordered field with a floor, and
the arithmetic is exact; the 32-bit arithmetic around it wraps as in the source.  A draw of
`sb_rand_uniform_double` is an argument, and so are `strtod` and `pow(·, pareto_power)`.  A
quotient by zero is none, and so is what is computed from it or from a number that
`uint32_t` cannot hold.
-/
import Mathlib.Algebra.Order.Floor.Semifield
import Sysbench.Model.Options

namespace Sysbench.Rand

open Options

variable {K : Type} [Field K] [LinearOrder K] [FloorSemiring K]

def randArgs : List SbArg :=
  [⟨"rand-type".toList, some "uniform".toList, .string, none⟩,
    ⟨"rand-seed".toList, some "0".toList, .int, none⟩,
    ⟨"rand-pareto-h".toList, some "0.2".toList, .double, none⟩,
    ⟨"rand-zipfian-exp".toList, some "0.8".toList, .double, none⟩]

inductive RandDist where
  | uniform
  | gaussian
  | pareto
  | zipfian
  deriving DecidableEq

/-- The static variables that `sb_rand_init` sets, without the seeds and the numbers computed by
logarithms: those of the Zipfian distribution and `pareto_power`. -/
structure RandConfig (K : Type) where
  sbRandSeed : ℤ
  randType : RandDist
  randIter : UInt32
  randIterMult : Option K
  randPct : UInt32
  randPctMult : K
  randPct2Mult : K
  randRes : UInt32
  randResMult : Option K
  paretoH : K

/-- How `sb_rand_init` fails. -/
inductive InitFailure where
  /-- It prints a message and returns 1. -/
  | rejected (message : String)
  /-- A getter prints a message and exits. -/
  | exits
  /-- `strcmp` is called with a NULL pointer. -/
  | nullString
  deriving DecidableEq

/-- A quotient of `double`s -/
def quotient (x y : K) : Option K :=
  if y = 0 then none else some (x / y)

/-- `sb_get_value_int` -/
def intOption (options : Registry) (name : String) : Except InitFailure ℤ :=
  match sbGetValueInt options name.toList with
  | none => .error .exits
  | some n => .ok n

/-- `rand_type` -/
def getRandType (options : Registry) : Except InitFailure RandDist :=
  match sbGetValueString options "rand-type".toList with
  | none => .error .nullString
  | some s =>
    if s = "uniform".toList then .ok .uniform
    else if s = "gaussian".toList then .ok .gaussian
    else if s = "pareto".toList then .ok .pareto
    else if s = "zipfian".toList then .ok .zipfian
    else .error (.rejected ("Invalid random numbers distribution: " ++ String.ofList s ++ "."))

def sbRandInit (strtod : Text → K) (options : Registry) :
    Except InitFailure (RandConfig K) := do
  let seed ← intOption options "rand-seed"
  let randType ← getRandType options
  -- The other three are stored into an `unsigned int`.
  let iter ← intOption options "rand-spec-iter"
  let randIter := UInt32.ofInt iter
  let pct ← intOption options "rand-spec-pct"
  let randPct := UInt32.ofInt pct
  let res ← intOption options "rand-spec-res"
  let randRes := UInt32.ofInt res
  let paretoH := sbGetValueDouble strtod options "rand-pareto-h".toList
  if sbGetValueDouble strtod options "rand-zipfian-exp".toList < 0 then
    .error (.rejected "--rand-zipfian-exp must be >= 0")
  else
    pure {
      sbRandSeed := seed
      randType := randType
      randIter := randIter
      randIterMult := quotient 1 randIter.toNat
      randPct := randPct
      randPctMult := randPct.toNat / 100
      randPct2Mult := randPct.toNat / 200
      randRes := randRes
      randResMult := quotient 100 (100 - randRes.toNat)
      paretoH := paretoH }

/-- The conversion of a `double` to `uint32_t`; what does not fit is undefined. -/
def toUInt32 (x : K) : Option UInt32 :=
  if 0 ≤ x ∧ x < 2 ^ 32 then some (UInt32.ofNat ⌊x⌋₊) else none

def sbRandUniform (draw : K) (a b : UInt32) : Option UInt32 :=
  toUInt32 ((a.toNat : K) + draw * ((b - a + 1).toNat : K))

/-- `sb_rand_gaussian`, with a draw for every round of its loop -/
def sbRandGaussian (cfg : RandConfig K) (draws : ℕ → K) (a b : UInt32) : Option UInt32 := do
  let t : K := (b - a + 1).toNat
  let sum := (List.range cfg.randIter.toNat).foldl (fun sum i => sum + draws i * t) 0
  let mult ← cfg.randIterMult
  let n ← toUInt32 (sum * mult)
  pure (a + n)

/-- `sb_rand_pareto`.  `power` is `pow(·, pareto_power)`. -/
def sbRandPareto (power : K → K) (draw : K) (a b : UInt32) : Option UInt32 := do
  let n ← toUInt32 (((b - a + 1).toNat : K) * power draw)
  pure (a + n)

end Sysbench.Rand
