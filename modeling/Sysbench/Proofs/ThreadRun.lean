/-
When the two main loops keep the books.

An event that goes well adds the same three calls in both loops.  They part at the first event
that asks to stop: the Lua loop is left at once, without `sb_event_stop`, while the C loop
stops the event and then asks `sb_more_events` once more before it looks at the code.
`rounds` is what both have done by then.
-/
import Sysbench.Model.ThreadRun

namespace Sysbench.ThreadRun

open List

/-! ### Balance -/

def LoopCall.isMore : LoopCall → Bool
  | .moreEvents _ => true
  | _ => false

/-- The calls up to the next `sb_more_events`. -/
def eventCalls (calls : List LoopCall) : List LoopCall :=
  calls.takeWhile fun c => !c.isMore

/-- Every `sb_more_events` that returns true is followed by one `sb_event_start` and one
`sb_event_stop`, before it is called again or the loop is left. -/
def Balanced (calls : List LoopCall) : Prop :=
  ∀ before after, calls = before ++ .moreEvents true :: after →
    (eventCalls after).count .eventStart = 1 ∧ (eventCalls after).count .eventStop = 1

theorem balanced_cons (c : LoopCall) (calls : List LoopCall) :
    Balanced (c :: calls) ↔
      (c = .moreEvents true →
        (eventCalls calls).count .eventStart = 1 ∧ (eventCalls calls).count .eventStop = 1) ∧
      Balanced calls := by
  refine ⟨fun h => ⟨?_, ?_⟩, ?_⟩
  · rintro rfl
    exact h [] calls rfl
  · intro before after heq
    exact h (c :: before) after (by rw [heq, cons_append])
  · rintro ⟨hc, hcalls⟩ before after heq
    cases before with
    | nil =>
      cases heq
      exact hc rfl
    | cons b before =>
      cases heq
      exact hcalls before after rfl

/-! ### Rounds -/

/-- The calls of `n` events that go well. -/
def rounds : ℕ → List LoopCall
  | 0 => []
  | n + 1 => .moreEvents true :: .eventStart :: .eventStop :: rounds n

theorem balanced_round {calls : List LoopCall} (h : eventCalls calls = []) :
    Balanced (.moreEvents true :: .eventStart :: .eventStop :: calls) ↔ Balanced calls := by
  have hevent : eventCalls (.eventStart :: .eventStop :: calls) = [.eventStart, .eventStop] := by
    simpa [eventCalls, LoopCall.isMore] using h
  rw [balanced_cons, balanced_cons, balanced_cons, hevent]
  simp

theorem eventCalls_rounds (n : ℕ) {calls : List LoopCall} (h : eventCalls calls = []) :
    eventCalls (rounds n ++ calls) = [] := by
  cases n with
  | zero => exact h
  | succ n => rfl

/-- Behind full rounds, only what follows matters. -/
theorem balanced_rounds (n : ℕ) {calls : List LoopCall} (h : eventCalls calls = []) :
    Balanced (rounds n ++ calls) ↔ Balanced calls := by
  induction n with
  | zero => exact Iff.rfl
  | succ n ih => exact (balanced_round (eventCalls_rounds n h)).trans ih

/-! ### The loops in rounds -/

variable {rcs : ℕ → ℤ} {tries : ℕ → List Attempt} {answers : List Bool}

/-- Of a loop that makes one round for an event that goes well, `n` such events make `n`
rounds. -/
theorem loop_rounds (loop : List Bool → ℕ → List LoopCall × LoopEnd) (GoesWell : ℕ → Prop)
    (hround : ∀ answers k, GoesWell k →
      loop (true :: answers) k
        = (rounds 1 ++ (loop answers (k + 1)).1, (loop answers (k + 1)).2))
    (n : ℕ) : ∀ {k : ℕ}, (∀ j < n, GoesWell (k + j)) →
      loop (replicate n true ++ answers) k
        = (rounds n ++ (loop answers (k + n)).1, (loop answers (k + n)).2) := by
  induction n with
  | zero =>
    intro k _
    rfl
  | succ n ih =>
    intro k hwell
    have hrest := ih (k := k + 1) fun j hj => by
      rw [Nat.add_assoc, Nat.add_comm 1 j]
      exact hwell (j + 1) (Nat.succ_lt_succ hj)
    rw [Nat.add_assoc, Nat.add_comm 1 n] at hrest
    rw [replicate_succ, cons_append, hround _ k (hwell 0 (Nat.succ_pos n)), hrest]
    rfl

theorem threadRunLoop_rounds (n : ℕ) {k : ℕ} (hzero : ∀ j < n, rcs (k + j) = 0) :
    threadRunLoop (fun j => .request (rcs j)) (replicate n true ++ answers) k 0
      = (rounds n ++ (threadRunLoop (fun j => .request (rcs j)) answers (k + n) 0).1,
        (threadRunLoop (fun j => .request (rcs j)) answers (k + n) 0).2) := by
  refine loop_rounds (fun answers k => threadRunLoop (fun j => .request (rcs j)) answers k 0)
    (fun k => rcs k = 0) (fun answers k hrc => ?_) n hzero
  simp [threadRunLoop, hrc, rounds]

theorem luaThreadRunLoop_rounds (n : ℕ) {k : ℕ}
    (hfalse : ∀ j < n, repeatEvent (tries (k + j)) = .returned false) :
    luaThreadRunLoop tries (replicate n true ++ answers) k
      = (rounds n ++ (luaThreadRunLoop tries answers (k + n)).1,
        (luaThreadRunLoop tries answers (k + n)).2) := by
  refine loop_rounds (luaThreadRunLoop tries) (fun k => repeatEvent (tries k) = .returned false)
    (fun answers k hreturned => ?_) n hfalse
  simp [luaThreadRunLoop, hreturned, rounds]

/-! ### The first event that asks to stop -/

/-- Event `k` is reached, and is the first one with a code other than 0. -/
structure FirstStop (answers : List Bool) (rcs : ℕ → ℤ) (k : ℕ) : Prop where
  reached : ∀ j ≤ k, answers[j]? = some true
  before : ∀ j < k, rcs j = 0
  stops : rcs k ≠ 0

/-- How answers and codes can begin: `n` events go well, and then there is no further answer or
it is no, or another event asks to stop. -/
inductive Beginning (rcs : ℕ → ℤ) : List Bool → Prop where
  | ended (n : ℕ) (hzero : ∀ j < n, rcs j = 0) (rest : List Bool)
      (hrest : rest.head? ≠ some true) : Beginning rcs (List.replicate n true ++ rest)
  | stopped (n : ℕ) (hzero : ∀ j < n, rcs j = 0) (hstop : rcs n ≠ 0) (rest : List Bool) :
      Beginning rcs (List.replicate n true ++ true :: rest)

theorem beginning (answers : List Bool) : ∀ rcs : ℕ → ℤ, Beginning rcs answers := by
  induction answers with
  | nil =>
    intro rcs
    exact .ended 0 (by simp) [] (by simp)
  | cons b answers ih =>
    intro rcs
    cases b with
    | false => exact .ended 0 (by simp) (false :: answers) (by simp)
    | true =>
      by_cases hzero : rcs 0 = 0
      · have hcons : ∀ {n : ℕ}, (∀ j < n, rcs (j + 1) = 0) → ∀ j < n + 1, rcs j = 0 := by
          intro n hrest j hj
          cases j with
          | zero => exact hzero
          | succ j => exact hrest j (Nat.lt_of_succ_lt_succ hj)
        cases ih fun j => rcs (j + 1) with
        | ended n hrest rest hend => exact .ended (n + 1) (hcons hrest) rest hend
        | stopped n hrest hstop rest => exact .stopped (n + 1) (hcons hrest) hstop rest
      · exact .stopped 0 (by simp) hzero answers

theorem not_firstStop_of_zero {n k : ℕ} (hzero : ∀ j < n, rcs j = 0)
    (hend : answers[n]? ≠ some true) : ¬FirstStop answers rcs k := by
  intro h
  by_cases hk : k < n
  · exact h.stops (hzero k hk)
  · exact hend (h.reached n (Nat.le_of_not_lt hk))

theorem firstStop_iff {n k : ℕ} (hzero : ∀ j < n, rcs j = 0) (hstop : rcs n ≠ 0)
    (hreached : ∀ j ≤ n, answers[j]? = some true) : FirstStop answers rcs k ↔ k = n := by
  refine ⟨fun h => ?_, ?_⟩
  · rcases Nat.lt_trichotomy k n with hlt | heq | hgt
    · exact absurd (hzero k hlt) h.stops
    · exact heq
    · exact absurd (h.before n hgt) hstop
  · rintro rfl
    exact ⟨hreached, hzero, hstop⟩

/-- What a loop does that only asks once more. -/
def lastCalls (answers : List Bool) : List LoopCall := (answers.take 1).map .moreEvents

theorem eventCalls_lastCalls (answers : List Bool) : eventCalls (lastCalls answers) = [] := by
  cases answers with
  | nil => rfl
  | cons b answers => rfl

theorem balanced_lastCalls (answers : List Bool) :
    Balanced (lastCalls answers) ↔ answers.head? ≠ some true := by
  have hnil : Balanced [] := by
    intro before after heq
    simp at heq
  cases answers with
  | nil => simpa [lastCalls] using hnil
  | cons b answers =>
    simp only [lastCalls, take_succ_cons, take_zero, map_cons, map_nil,
      balanced_cons, hnil]
    simp [eventCalls]

/-- Behind an event that asks to stop, the C loop makes one more call. -/
theorem threadRunLoop_of_ne (events : ℕ → CEvent) {rc : ℤ} (hrc : rc ≠ 0) (k : ℕ)
    (answers : List Bool) : (threadRunLoop events answers k rc).1 = lastCalls answers := by
  cases answers with
  | nil => rfl
  | cons b answers =>
    cases b with
    | false => rfl
    | true => simp [threadRunLoop, hrc, lastCalls]

theorem threadRunLoop_of_head (events : ℕ → CEvent) (rc : ℤ) (k : ℕ) {answers : List Bool}
    (h : answers.head? ≠ some true) :
    (threadRunLoop events answers k rc).1 = lastCalls answers := by
  cases answers with
  | nil => rfl
  | cons b answers =>
    cases b with
    | false => rfl
    | true => exact absurd rfl h

theorem luaThreadRunLoop_of_head (events : ℕ → List Attempt) (k : ℕ) {answers : List Bool}
    (h : answers.head? ≠ some true) :
    (luaThreadRunLoop events answers k).1 = lastCalls answers := by
  cases answers with
  | nil => rfl
  | cons b answers =>
    cases b with
    | false => rfl
    | true => exact absurd rfl h

/-! ### Both loops -/

/-- Two runs make the same number of calls of `sb_more_events` and of `sb_event_stop`. -/
def SameCounts (calls calls' : List LoopCall) : Prop :=
  calls.countP LoopCall.isMore = calls'.countP LoopCall.isMore ∧
    calls.count .eventStop = calls'.count .eventStop

/-- **Event bookkeeping.**  Let a code other than 0 of a C event stand for a value returned by the
Lua event, which may have been restarted any number of times.  For all codes and all answers of
`sb_more_events`: the C loop is balanced unless there is an event that asks to stop and
`sb_more_events` returns true once more behind it; the Lua loop is balanced if and only if no
event asks to stop, and if and only if that is so, both loops make the same number of calls. -/
theorem event_bookkeeping_iff (rcs : ℕ → ℤ) (tries : ℕ → List Attempt) (answers : List Bool)
    (hmatch : ∀ k, repeatEvent (tries k) = .returned (decide (rcs k ≠ 0))) :
    (Balanced (threadRun (fun k => .request (rcs k)) answers).1 ↔
      ∀ k, FirstStop answers rcs k → answers[k + 1]? ≠ some true) ∧
    (Balanced (luaThreadRun tries answers).1 ↔ ∀ k, ¬FirstStop answers rcs k) ∧
    (SameCounts (threadRun (fun k => .request (rcs k)) answers).1 (luaThreadRun tries answers).1 ↔
      ∀ k, ¬FirstStop answers rcs k) := by
  have hlua : ∀ {n}, (∀ j < n, rcs j = 0) →
      ∀ j < n, repeatEvent (tries (0 + j)) = .returned false := by
    intro n hzero j hj
    rw [Nat.zero_add, hmatch j, hzero j hj]
    rfl
  have hc : ∀ {n}, (∀ j < n, rcs j = 0) → ∀ j < n, rcs (0 + j) = 0 := by
    intro n hzero j hj
    rw [Nat.zero_add]
    exact hzero j hj
  unfold threadRun luaThreadRun
  cases beginning answers rcs with
  | ended n hzero rest hrest =>
    have hnone : ∀ k, ¬FirstStop (List.replicate n true ++ rest) rcs k := by
      intro k
      refine not_firstStop_of_zero hzero ?_
      rw [getElem?_append_right (by simp), length_replicate, Nat.sub_self,
        ← head?_eq_getElem?]
      exact hrest
    have hbalanced : Balanced (rounds n ++ lastCalls rest) :=
      (balanced_rounds n (eventCalls_lastCalls rest)).mpr ((balanced_lastCalls rest).mpr hrest)
    rw [threadRunLoop_rounds n (hc hzero), luaThreadRunLoop_rounds n (hlua hzero)]
    simp only [threadRunLoop_of_head _ _ _ hrest, luaThreadRunLoop_of_head _ _ hrest]
    exact ⟨iff_of_true hbalanced fun k hk => absurd hk (hnone k), iff_of_true hbalanced hnone,
      iff_of_true ⟨rfl, rfl⟩ hnone⟩
  | stopped n hzero hstop rest =>
    have hreached : ∀ j ≤ n, (List.replicate n true ++ true :: rest)[j]? = some true := by
      intro j hj
      have hlt : j < (List.replicate (n + 1) true).length := by
        rw [length_replicate]
        omega
      rw [append_cons, ← replicate_succ', getElem?_append_left hlt,
        getElem?_replicate, if_pos (Nat.lt_succ_of_le hj)]
    have hfirst : ∀ k, FirstStop (List.replicate n true ++ true :: rest) rcs k ↔ k = n :=
      fun k => firstStop_iff hzero hstop hreached
    have hbehind : (List.replicate n true ++ true :: rest)[n + 1]? = rest.head? := by
      rw [getElem?_append_right (by simp), length_replicate, Nat.add_sub_cancel_left,
        getElem?_cons_succ, head?_eq_getElem?]
    have hstart : (threadRunLoop (fun k => .request (rcs k)) (true :: rest) (0 + n) 0).1
        = .moreEvents true :: .eventStart :: .eventStop :: lastCalls rest := by
      simp [threadRunLoop, threadRunLoop_of_ne _ hstop]
    have hbreak : (luaThreadRunLoop tries (true :: rest) (0 + n)).1
        = [.moreEvents true, .eventStart] := by
      simp [luaThreadRunLoop, hmatch, hstop]
    rw [threadRunLoop_rounds n (hc hzero), luaThreadRunLoop_rounds n (hlua hzero)]
    simp only [hstart, hbreak, hfirst, forall_eq, hbehind]
    refine ⟨?_, iff_of_false ?_ (by simp), iff_of_false ?_ (by simp)⟩
    · rw [balanced_rounds n rfl, balanced_round (eventCalls_lastCalls rest),
        balanced_lastCalls]
    · rw [balanced_rounds n rfl, balanced_cons]
      simp [eventCalls, LoopCall.isMore]
    · -- The event that asks to stop is stopped in C only.
      rintro ⟨-, hstops⟩
      simp at hstops

/-- Two events, the first of them restarted once in Lua, and then no more. -/
theorem event_bookkeeping_two_events :
    Balanced (threadRun (fun _ => .request 0) [true, true, false]).1 ∧
      Balanced (luaThreadRun (fun _ => [.restart false, .returned false]) [true, true, false]).1 ∧
      SameCounts (threadRun (fun _ => .request 0) [true, true, false]).1
        (luaThreadRun (fun _ => [.restart false, .returned false]) [true, true, false]).1 := by
  have hnone : ∀ k, ¬FirstStop [true, true, false] (fun _ => 0) k := fun k h => h.stops rfl
  obtain ⟨hc, hlua, hcounts⟩ := event_bookkeeping_iff (fun _ => 0)
    (fun _ => [.restart false, .returned false]) [true, true, false] (fun _ => rfl)
  exact ⟨hc.mpr fun k hk => absurd hk (hnone k), hlua.mpr hnone, hcounts.mpr hnone⟩

/-- The first event asks to stop: in C a second ticket is drawn for no event, and in Lua the
event is never stopped. -/
theorem event_bookkeeping_lost :
    (threadRun (fun _ => .request 1) [true, true]).1
        = [.moreEvents true, .eventStart, .eventStop, .moreEvents true] ∧
      (luaThreadRun (fun _ => [.returned true]) [true, true]).1
        = [.moreEvents true, .eventStart] ∧
      ¬Balanced (threadRun (fun _ => .request 1) [true, true]).1 ∧
      ¬Balanced (luaThreadRun (fun _ => [.returned true]) [true, true]).1 := by
  refine ⟨rfl, rfl, fun h => ?_, fun h => ?_⟩
  · exact absurd (h [.moreEvents true, .eventStart, .eventStop] [] rfl).1 (by decide)
  · exact absurd (h [] [.eventStart] rfl).2 (by decide)

end Sysbench.ThreadRun
