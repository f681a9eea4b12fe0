/-
A loop over replicas that stops at the first one in trouble.

Each replica of a list is sent the same request in turn.  One that answers well lets
the loop go on; another stops it, either before the request took effect there or after.
`reached` are the replicas on which it took effect: always the first few of the list.
They are none, or all, in the cases the last two lemmas name.
-/
import Mathlib.Init

namespace Broadcast

/-- What a replica does with a request, and with the loop. -/
inductive Mark where
  | pass
  | stopBefore
  | stopAfter
  deriving DecidableEq

variable {α : Type} {mark : α → Mark} {a : α} {l : List α}

/-- The replicas on which the request takes effect. -/
def reached (mark : α → Mark) : List α → List α
  | [] => []
  | a :: l =>
    match mark a with
    | .pass => a :: reached mark l
    | .stopBefore => []
    | .stopAfter => [a]

theorem reached_cons_pass (h : mark a = .pass) : reached mark (a :: l) = a :: reached mark l := by
  rw [reached, h]

theorem reached_cons_stopBefore (h : mark a = .stopBefore) : reached mark (a :: l) = [] := by
  rw [reached, h]

theorem reached_cons_stopAfter (h : mark a = .stopAfter) : reached mark (a :: l) = [a] := by
  rw [reached, h]

theorem reached_sublist (l : List α) : (reached mark l).Sublist l := by
  induction l with
  | nil => exact List.Sublist.refl _
  | cons a l ih =>
    cases h : mark a with
    | pass =>
      rw [reached_cons_pass h]
      exact ih.cons_cons a
    | stopBefore =>
      rw [reached_cons_stopBefore h]
      exact List.nil_sublist _
    | stopAfter =>
      rw [reached_cons_stopAfter h]
      exact (List.nil_sublist l).cons_cons a

/-- A request takes effect nowhere when the first replica is in trouble before that. -/
theorem reached_eq_nil_iff : reached mark l = [] ↔ ∀ a ∈ l.head?, mark a = .stopBefore := by
  cases l with
  | nil => simp [reached]
  | cons a l =>
    cases h : mark a with
    | pass => simp [reached_cons_pass h, h]
    | stopBefore => simp [reached_cons_stopBefore h, h]
    | stopAfter => simp [reached_cons_stopAfter h, h]

/-- It takes effect everywhere when only the last replica stops the loop, and not before. -/
theorem reached_eq_self_iff :
    reached mark l = l ↔
      (∀ a ∈ l.dropLast, mark a = .pass) ∧ ∀ a ∈ l.getLast?, mark a ≠ .stopBefore := by
  induction l with
  | nil => simp [reached]
  | cons a l ih =>
    cases l with
    | nil =>
      cases h : mark a with
      | pass | stopBefore | stopAfter => simp [reached, h]
    | cons b l =>
      cases h : mark a with
      | pass =>
        rw [reached_cons_pass h, List.cons_inj_right, ih]
        simp [h]
      | stopBefore => simp [reached_cons_stopBefore h, h]
      | stopAfter => simp [reached_cons_stopAfter h, h]

end Broadcast
