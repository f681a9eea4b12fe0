/-
A mutex among processes whose program counters say who holds it.

Each process is in a phase, and some phases lie between taking the mutex and giving it
back.  `Held` says that the mutex is with the process in such a phase; then there is at
most one.  A step of one process keeps this if it stays on its side of the border, if it
finds the mutex free and takes it, or if it gives it back; a change of phases that moves
nobody across the border keeps it too.
-/
import Mathlib.Logic.Function.Basic

namespace Mutex

open Function

variable {P Q : Type} {holding : Q → Bool} {phase : P → Q} {mutex : Option P}

/-- The mutex is with the process in the middle of its critical section. -/
def Held (holding : Q → Bool) (phase : P → Q) (mutex : Option P) : Prop :=
  ∀ p, holding (phase p) = true ↔ mutex = some p

theorem Held.eq (h : Held holding phase mutex) {p q : P} (hp : holding (phase p) = true)
    (hq : holding (phase q) = true) : p = q := by
  have hboth := ((h p).mp hp).symm.trans ((h q).mp hq)
  exact Option.some.inj hboth

theorem Held.not_holding (h : Held holding phase mutex) (hfree : mutex = none) (p : P) :
    ¬holding (phase p) = true := by
  intro hp
  rw [h p, hfree] at hp
  cases hp

/-- A change of phases that moves nobody across the border. -/
theorem Held.congr (h : Held holding phase mutex) {phase' : P → Q}
    (hsame : ∀ p, holding (phase' p) = holding (phase p)) : Held holding phase' mutex := by
  intro p
  rw [hsame]
  exact h p

variable [DecidableEq P]

/-- A step that neither takes nor gives back the mutex. -/
theorem Held.keep (h : Held holding phase mutex) (p : P) {q : Q}
    (hq : holding q = holding (phase p)) : Held holding (update phase p q) mutex := by
  apply h.congr
  intro r
  by_cases hr : r = p
  · subst hr
    rw [update_self, hq]
  · rw [update_of_ne hr]

theorem Held.take (h : Held holding phase mutex) (p : P) {q : Q} (hfree : mutex = none)
    (hq : holding q = true) : Held holding (update phase p q) (some p) := by
  intro r
  by_cases hr : r = p
  · subst hr
    rw [update_self]
    exact ⟨fun _ => rfl, fun _ => hq⟩
  · rw [update_of_ne hr]
    refine ⟨fun hc => absurd hc (h.not_holding hfree r), fun hc => ?_⟩
    exact absurd (Option.some.inj hc).symm hr

theorem Held.give (h : Held holding phase mutex) (p : P) {q : Q}
    (hheld : holding (phase p) = true) (hq : holding q = false) :
    Held holding (update phase p q) none := by
  intro r
  refine ⟨fun hc => ?_, nofun⟩
  by_cases hr : r = p
  · subst hr
    rw [update_self, hq] at hc
    cases hc
  · rw [update_of_ne hr] at hc
    exact absurd (h.eq hc hheld) hr

end Mutex
