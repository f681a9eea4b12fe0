/-
The segments of `select_random_points.lua` and `select_random_ranges.lua`.

Both scripts cut the table into as many segments as there are threads, and every thread draws
its values from its own one.  The numbers of Lua are `double`s: an operation computes the exact
result and rounds it, and the rounding is an argument.  `sysbench.rand.default` converts its
arguments to `uint32_t` and hands them to a generator, which is an argument as well.
-/
import Sysbench.Model.RandRange

namespace Sysbench.RandomSegments

open Sysbench.Rand

/-- `sysbench.opt`, as far as the two scripts read it -/
structure Opt where
  tableSize : ℕ
  threads : ℕ
  randomPoints : ℕ := 10
  numberOfRanges : ℕ := 10
  delta : ℤ := 5

/-- The global variables that `thread_init` sets -/
structure Globals (K : Type) where
  rlen : K
  threadId : ℕ

variable {K : Type} [Field K] [LinearOrder K] [FloorSemiring K]

/-- `thread_init`, the same in both scripts -/
def threadInit (round : K → K) (opt : Opt) (tid : ℕ) : Globals K where
  rlen := round (opt.tableSize / opt.threads)
  threadId := tid % opt.threads

def rmin (round : K → K) (globals : Globals K) : K :=
  round (globals.rlen * globals.threadId)

def rmax (round : K → K) (globals : Globals K) : K :=
  round (rmin round globals + globals.rlen)

/-- `sysbench.rand.default(rmin, rmax)` -/
def randDefault (round : K → K) (globals : Globals K) (rand : UInt32 → UInt32 → Option UInt32) :
    Option UInt32 := do
  let a ← toUInt32 (rmin round globals)
  let b ← toUInt32 (rmax round globals)
  rand a b

/-- The values that `count` rounds of a loop draw.  `rand i` is the generator in round `i`. -/
def drawValues (round : K → K) (globals : Globals K)
    (rand : ℕ → UInt32 → UInt32 → Option UInt32) (count : ℕ) : Option (List UInt32) :=
  (List.range count).mapM fun i => randDefault round globals (rand i)

/-- The parameters that `event` of `select_random_points.lua` sets -/
def pointsEvent (round : K → K) (opt : Opt) (globals : Globals K)
    (rand : ℕ → UInt32 → UInt32 → Option UInt32) : Option (List ℤ) := do
  let vals ← drawValues round globals rand opt.randomPoints
  pure (vals.map fun val => (val.toNat : ℤ))

/-- The parameters that `event` of `select_random_ranges.lua` sets: the ends of every range -/
def rangesEvent (round : K → K) (opt : Opt) (globals : Globals K)
    (rand : ℕ → UInt32 → UInt32 → Option UInt32) : Option (List ℤ) := do
  let vals ← drawValues round globals rand opt.numberOfRanges
  pure (vals.flatMap fun val => [(val.toNat : ℤ), (val.toNat : ℤ) + opt.delta])

end Sysbench.RandomSegments
