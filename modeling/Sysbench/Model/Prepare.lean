/-
The parallel `prepare` command of `oltp_common.lua`.

`sb_lua_call_custom_command` runs a command that can be executed in parallel in every worker
thread, and in the main thread alone if there is one thread only.  Each thread connects and
then walks through the table numbers in steps of `--threads`; a Lua error ends the command in
its thread.  A turn of a thread is one of its calls or the test of its loop.  Lua's numbers are
integers here.
-/
import Mathlib.Logic.Function.Basic
import Mathlib.Data.Int.Notation
import Mathlib.Data.Nat.Notation

namespace Sysbench.Prepare

/-- `sb_lua_call_custom_command`: the values of `sb_tls_thread_id` in the threads that execute the
command.  In the main thread the variable is never set. -/
def commandThreads (parallel : Bool) (threads : ℕ) : List ℕ :=
  if parallel = true ∧ threads > 1 then List.range threads else [0]

/-- Whether the calls return; otherwise they raise an error. -/
structure Outcome where
  connect : ℕ → Bool
  createTable : ℤ → Bool

/-- Where a thread is in `cmd_prepare`. -/
inductive Worker where
  | starting
  /-- in front of the loop's test, with the loop variable -/
  | looping (i : ℤ)
  | returned
  | failed
  deriving DecidableEq

/-- The threads, and the calls of `create_table` so far with the threads that made them -/
structure PrepareState (threads : ℕ) where
  workers : Fin threads → Worker
  calls : List (Fin threads × ℤ)

def prepareStart (threads : ℕ) : PrepareState threads where
  workers := fun _ => .starting
  calls := []

variable {threads : ℕ}

def PrepareState.set (s : PrepareState threads) (tid : Fin threads) (w : Worker) :
    PrepareState threads :=
  { s with workers := Function.update s.workers tid w }

/-- A turn of `cmd_prepare` in thread `tid` -/
def prepareTurn (outcome : Outcome) (tables : ℤ) (s : PrepareState threads) (tid : Fin threads) :
    PrepareState threads :=
  match s.workers tid with
  | .starting =>
    s.set tid (if outcome.connect tid then .looping ((tid : ℤ) % threads + 1) else .failed)
  | .looping i =>
    if i ≤ tables then
      { s.set tid (if outcome.createTable i then .looping (i + threads) else .failed) with
        calls := s.calls ++ [(tid, i)] }
    else s.set tid .returned
  | .returned => s
  | .failed => s

/-- Some turns, each of the thread named -/
def prepareRun (outcome : Outcome) (tables : ℤ) (turns : List (Fin threads)) :
    PrepareState threads :=
  turns.foldl (prepareTurn outcome tables) (prepareStart threads)

end Sysbench.Prepare
