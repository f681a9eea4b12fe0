/-
The unique sequence generator of `sb_rand.c`.

`rand_unique_permute` maps a 32-bit integer through folded squaring modulo the
prime 4294967291, the five integers at or above it being mapped to themselves.
`sb_rand_unique` draws an index with one atomic fetch-and-add and sends it through
two such permutations with an addition and an exclusive or in between.

Threads share only the index and the offset, and the offset is never written after
seeding, so a call has two observable steps: the fetch-and-add, and the return of a
value computed from the fetched index alone.  `UniqueEvent` names them and
`uniqueRun` replays any interleaving of them.
-/
import Mathlib.Data.UInt

namespace Sysbench

/-- The static `prime` of `rand_unique_permute`. -/
def uniquePrime : UInt32 := 4294967291

def randUniquePermute (x : UInt32) : UInt32 :=
  if x ≥ uniquePrime then x
  else
    -- The product is formed in 64 bits, so it does not wrap.
    let residue := (x.toUInt64 * x.toUInt64 % uniquePrime.toUInt64).toUInt32
    if x ≤ uniquePrime / 2 then residue else uniquePrime - residue

/-- The two static variables the generator keeps. -/
structure UniqueSeed where
  randUniqueIndex : UInt32
  randUniqueOffset : UInt32
  deriving DecidableEq

def randUniqueSeed (index offset : UInt32) : UniqueSeed where
  randUniqueIndex := randUniquePermute (randUniquePermute index + 0x682f0161)
  randUniqueOffset := randUniquePermute (randUniquePermute offset + 0x46790905)

/-- What `sb_rand_unique` returns once it has fetched `index`. -/
def sbRandUniqueValue (offset index : UInt32) : UInt32 :=
  randUniquePermute ((randUniquePermute index + offset) ^^^ 0x5bf03635)

/-! ### Threads calling the generator -/

/-- A step of some thread inside `sb_rand_unique`. -/
inductive UniqueEvent (T : Type) where
  /-- `ck_pr_faa_32(&rand_unique_index, 1)` -/
  | fetch (t : T)
  /-- The return of the value computed from the fetched index. -/
  | finish (t : T)

/-- The shared variables, the local `index` of every thread inside a call, and a record
of the calls: they are numbered in the order of their fetch-and-adds. -/
structure UniqueState (T : Type) where
  randUniqueIndex : UInt32
  randUniqueOffset : UInt32
  /-- The number of the call a thread is in, with the index it fetched. -/
  inCall : T → Option (ℕ × UInt32)
  /-- How many fetch-and-adds there have been. -/
  calls : ℕ
  /-- The calls that have returned, each with its value. -/
  returned : List (ℕ × UInt32)

/-- No thread has called the generator yet. -/
def uniqueInit (T : Type) (seed : UniqueSeed) : UniqueState T where
  randUniqueIndex := seed.randUniqueIndex
  randUniqueOffset := seed.randUniqueOffset
  inCall := fun _ => none
  calls := 0
  returned := []

/-- One step.  A thread inside a call cannot start another, and one outside has nothing
to return: such an event is not a step of the thread and leaves the state alone. -/
def uniqueStep {T : Type} [DecidableEq T] (s : UniqueState T) : UniqueEvent T → UniqueState T
  | .fetch t =>
    match s.inCall t with
    | some _ => s
    | none =>
      { s with
        randUniqueIndex := s.randUniqueIndex + 1
        inCall := Function.update s.inCall t (some (s.calls, s.randUniqueIndex))
        calls := s.calls + 1 }
  | .finish t =>
    match s.inCall t with
    | none => s
    | some (m, index) =>
      { s with
        inCall := Function.update s.inCall t none
        returned := (m, sbRandUniqueValue s.randUniqueOffset index) :: s.returned }

/-- Any interleaving of the steps of any number of threads, from a seeded generator. -/
def uniqueRun {T : Type} [DecidableEq T] (seed : UniqueSeed) (sched : List (UniqueEvent T)) :
    UniqueState T :=
  sched.foldl uniqueStep (uniqueInit T seed)

end Sysbench
