/-
Machines: a step goes on to another state or stops with an outcome.

A loop of a program is one, and whether it ends is a question of its own: `Halts` says that
some number of steps leads to an outcome.  The two rules are those of a loop.  A measure that
every step lowers makes the machine halt (`halts_of_measure`); what every step keeps holds
when it does (`Halts.outcome`), and so a machine that can only stop in other ways never halts
with a given outcome.
-/
import Mathlib.Data.Nat.Init

namespace Machine

variable {S O : Type} {step : S → S ⊕ O}

/-- At most `fuel` steps; none if that is not enough. -/
def run (step : S → S ⊕ O) : ℕ → S → Option O
  | 0, _ => none
  | fuel + 1, s =>
    match step s with
    | .inl s' => run step fuel s'
    | .inr o => some o

/-- Some number of steps leads from `s` to the outcome. -/
def Halts (step : S → S ⊕ O) (s : S) (o : O) : Prop := ∃ fuel, run step fuel s = some o

variable {s s' : S} {o o' : O}

theorem Halts.stop (h : step s = .inr o) : Halts step s o := by
  refine ⟨1, ?_⟩
  rw [run, h]

theorem Halts.next (h : step s = .inl s') (h' : Halts step s' o) : Halts step s o := by
  obtain ⟨fuel, hrun⟩ := h'
  refine ⟨fuel + 1, ?_⟩
  rw [run, h]
  exact hrun

/-- What every step keeps, and every stop turns into `Q`, is `Q` of the outcome. -/
theorem Halts.outcome {P : S → Prop} {Q : O → Prop} (hnext : ∀ s s', P s → step s = .inl s' → P s')
    (hstop : ∀ s o, P s → step s = .inr o → Q o) (hs : P s) (h : Halts step s o) : Q o := by
  obtain ⟨fuel, hrun⟩ := h
  induction fuel generalizing s with
  | zero => cases hrun
  | succ fuel ih =>
    rw [run] at hrun
    cases hstep : step s with
    | inl s' =>
      rw [hstep] at hrun
      exact ih (hnext s s' hs hstep) hrun
    | inr o' =>
      rw [hstep] at hrun
      cases hrun
      exact hstop s o hs hstep

/-- A machine whose steps lower a measure halts, and so that the outcome meets `Q`. -/
theorem halts_of_measure {P : S → Prop} {Q : O → Prop} (μ : S → ℕ)
    (h : ∀ s, P s → (∃ o, step s = .inr o ∧ Q o) ∨ ∃ s', step s = .inl s' ∧ P s' ∧ μ s' < μ s)
    (hs : P s) : ∃ o, Halts step s o ∧ Q o := by
  induction hμ : μ s using Nat.strong_induction_on generalizing s with
  | _ n ih =>
    rcases h s hs with ⟨o, hstop, hQ⟩ | ⟨s', hnext, hs', hlt⟩
    · exact ⟨o, .stop hstop, hQ⟩
    · obtain ⟨o, hhalts, hQ⟩ := ih (μ s') (hμ ▸ hlt) hs' rfl
      exact ⟨o, .next hnext hhalts, hQ⟩

end Machine
