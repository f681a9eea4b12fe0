/-
Schedules: a total step function replayed over a list of events.

An interleaving of threads is a list of events, and its run is a `foldl`.  `Always` says
that a property holds in every state of the run, and `Along` that every step is taken in
a state that meets a condition; a property that holds at the start and is kept by the
steps that meet the condition holds throughout.
-/
import Mathlib.Init

namespace Schedule

variable {S E : Type}

/-- Every step of the run meets `ok` in the state it is taken in. -/
def Along (step : S → E → S) (ok : S → E → Prop) : S → List E → Prop
  | _, [] => True
  | s, e :: es => ok s e ∧ Along step ok (step s e) es

instance decidableAlong (step : S → E → S) (ok : S → E → Prop) [∀ s e, Decidable (ok s e)] :
    (s : S) → (es : List E) → Decidable (Along step ok s es)
  | _, [] => isTrue trivial
  | s, e :: es =>
    have := decidableAlong step ok (step s e) es
    inferInstanceAs (Decidable (ok s e ∧ Along step ok (step s e) es))

/-- `P` holds in every state of the run, the first and the last included. -/
def Always (step : S → E → S) (P : S → Prop) : S → List E → Prop
  | s, [] => P s
  | s, e :: es => P s ∧ Always step P (step s e) es

variable {step : S → E → S} {P Q : S → Prop} {ok : S → E → Prop} {s : S} {es : List E}

theorem Always.head (h : Always step P s es) : P s := by
  cases es with
  | nil => exact h
  | cons e es => exact h.1

theorem Always.last (h : Always step P s es) : P (es.foldl step s) := by
  induction es generalizing s with
  | nil => exact h
  | cons e es ih => exact ih h.2

theorem Always.mono (h : Always step P s es) (hPQ : ∀ s, P s → Q s) : Always step Q s es := by
  induction es generalizing s with
  | nil => exact hPQ s h
  | cons e es ih => exact ⟨hPQ s h.1, ih h.2⟩

/-- What holds at the start and is kept by every step that meets `ok` holds throughout a run
whose steps all meet it. -/
theorem always_of_along (hstep : ∀ s e, P s → ok s e → P (step s e)) (h0 : P s)
    (h : Along step ok s es) : Always step P s es := by
  induction es generalizing s with
  | nil => exact h0
  | cons e es ih => exact ⟨h0, ih (hstep s e h0 h.1) h.2⟩

/-- Where a step keeps `P` exactly if it meets `ok`, so does a run throughout. -/
theorem always_iff_along {J : S → Prop} (hJ : ∀ s e, J s → J (step s e))
    (hstep : ∀ s e, J s → P s → (P (step s e) ↔ ok s e)) (hJ0 : J s) (h0 : P s) :
    Always step P s es ↔ Along step ok s es := by
  induction es generalizing s with
  | nil => exact ⟨fun _ => trivial, fun _ => h0⟩
  | cons e es ih =>
    refine ⟨?_, ?_⟩
    · rintro ⟨-, hrest⟩
      have hok := (hstep s e hJ0 h0).mp hrest.head
      exact ⟨hok, (ih (hJ s e hJ0) hrest.head).mp hrest⟩
    · rintro ⟨hok, hrest⟩
      have hnext := (hstep s e hJ0 h0).mpr hok
      exact ⟨h0, (ih (hJ s e hJ0) hnext).mpr hrest⟩

theorem invariant (hstep : ∀ s e, P s → P (step s e)) (h0 : P s) (es : List E) :
    P (es.foldl step s) := by
  induction es generalizing s with
  | nil => exact h0
  | cons e es ih => exact ih (hstep s e h0)

end Schedule
