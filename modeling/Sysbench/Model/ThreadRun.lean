/-
The main loop of a worker thread, in its two versions: `thread_run` of `sysbench.c`, and the
one of `sysbench.lua` that scripts get.

Both ask `sb_more_events` before an event and put the event between `sb_event_start` and
`sb_event_stop`.  A loop is run on the answers that `sb_more_events` gives, one after the
other, and on what its events do; it yields the calls of the three functions.  When the
answers are used up, the loop is still running.
-/
import Mathlib.Data.Int.Notation
import Mathlib.Data.Nat.Notation

namespace Sysbench.ThreadRun

/-- A call of one of the three functions. -/
inductive LoopCall where
  | moreEvents (answer : Bool)
  | eventStart
  | eventStop
  deriving DecidableEq

/-- Where a run has got to. -/
inductive LoopEnd where
  | running
  /-- the function has returned, in C with a code -/
  | returned (rc : ℤ)
  /-- a Lua error leaves the function -/
  | raised
  deriving DecidableEq

/-! ### The C loop -/

/-- What `next_event` hands out: `SB_REQ_TYPE_NULL`, or a request for which `execute_event`
returns a code. -/
inductive CEvent where
  | null
  | request (rc : ℤ)

/-- The loop of `thread_run`, in front of event `k`; `rc` is what the last event has returned.
The code is looked at behind the call of `sb_more_events`. -/
def threadRunLoop (events : ℕ → CEvent) : List Bool → ℕ → ℤ → List LoopCall × LoopEnd
  | [], _, _ => ([], .running)
  | false :: _, _, rc => ([.moreEvents false], .returned rc)
  | true :: answers, k, rc =>
    if rc = 0 then
      match events k with
      | .null => ([.moreEvents true], .returned rc)
      | .request rc' =>
        let (calls, stop) := threadRunLoop events answers (k + 1) rc'
        (.moreEvents true :: .eventStart :: .eventStop :: calls, stop)
    else ([.moreEvents true], .returned rc)

/-- `thread_run` of `sysbench.c`. -/
def threadRun (events : ℕ → CEvent) (answers : List Bool) : List LoopCall × LoopEnd :=
  threadRunLoop events answers 0 0

/-! ### The Lua loop -/

/-- One `pcall(event, thread_id)`. -/
inductive Attempt where
  /-- success; is the value other than nil and false? -/
  | returned (stop : Bool)
  /-- a table with the code `RESTART_EVENT`; does the hook `before_restart_event` raise? -/
  | restart (hookRaises : Bool)
  /-- any other error -/
  | failed

inductive EventEnd where
  | running
  | returned (stop : Bool)
  | raised
  deriving DecidableEq

/-- The `repeat … until success` around the event. -/
def repeatEvent : List Attempt → EventEnd
  | [] => .running
  | .returned stop :: _ => .returned stop
  | .restart hookRaises :: attempts => if hookRaises then .raised else repeatEvent attempts
  | .failed :: _ => .raised

/-- The loop of `thread_run`, in front of event `k`.  It is left before `sb_event_stop` where the
event returns a value. -/
def luaThreadRunLoop (events : ℕ → List Attempt) : List Bool → ℕ → List LoopCall × LoopEnd
  | [], _ => ([], .running)
  | false :: _, _ => ([.moreEvents false], .returned 0)
  | true :: answers, k =>
    match repeatEvent (events k) with
    | .running => ([.moreEvents true, .eventStart], .running)
    | .raised => ([.moreEvents true, .eventStart], .raised)
    | .returned true => ([.moreEvents true, .eventStart], .returned 0)
    | .returned false =>
      let (calls, stop) := luaThreadRunLoop events answers (k + 1)
      (.moreEvents true :: .eventStart :: .eventStop :: calls, stop)

/-- `thread_run` of `sysbench.lua`. -/
def luaThreadRun (events : ℕ → List Attempt) (answers : List Bool) : List LoopCall × LoopEnd :=
  luaThreadRunLoop events answers 0

end Sysbench.ThreadRun
