/-
Runs of a system whose steps may fault.

A step takes a state and a call, and either faults or returns a new state with a
result.  `Reach` collects the states of the runs in which every call meets a
condition on the state it is made in; the invariant rule is its induction principle.
The two bind lemmas take a computation in `Except` apart, so that a function written
with `do` is read off its equation and never unfolded twice; `Ends` states what holds of
a computation however it ends, and its bind rule follows the `do` block.
-/
import Mathlib.Init

namespace Runs

/-! ### Computations that may fault -/

section Except

variable {F A B : Type}

instance decidableEqExcept [DecidableEq F] [DecidableEq A] : DecidableEq (Except F A)
  | .error e, .error e' => decidable_of_iff (e = e') (by rw [Except.error.injEq])
  | .ok a, .ok a' => decidable_of_iff (a = a') (by rw [Except.ok.injEq])
  | .error _, .ok _ => isFalse nofun
  | .ok _, .error _ => isFalse nofun

variable {x : Except F A} {f : A → Except F B}

theorem bind_eq_ok {b : B} : (x >>= f) = .ok b ↔ ∃ a, x = .ok a ∧ f a = .ok b := by
  cases x with
  | error e =>
    refine ⟨fun h => ?_, fun ⟨a, h, _⟩ => ?_⟩
    · cases h
    · cases h
  | ok a =>
    refine ⟨fun h => ⟨a, rfl, h⟩, ?_⟩
    rintro ⟨a', h, hf⟩
    cases h
    exact hf

variable {e : F}

theorem not_of_check {c : Prop} [Decidable c] {u : Unit}
    (h : (if c then .error e else .ok ()) = Except.ok u) : ¬c := by
  intro hc
  rw [if_pos hc] at h
  cases h

theorem exists_ok (h : x.isOk = true) : ∃ a, x = .ok a := by
  cases x with
  | error e => cases h
  | ok a => exact ⟨a, rfl⟩

theorem exists_ok_of_any {p : A → Bool} (h : x.toOption.any p = true) :
    ∃ a, x = .ok a ∧ p a = true := by
  cases x with
  | error e => cases h
  | ok a => exact ⟨a, rfl, h⟩

/-- Two computations whose parts correspond under a map correspond. -/
theorem map_bind_eq {A' B' : Type} {x' : Except F A'} {f' : A' → Except F B'} {g : A → A'}
    {h : B → B'} (hx : x.map g = x') (hf : ∀ a, (f a).map h = f' (g a)) :
    (x >>= f).map h = x' >>= f' := by
  subst hx
  cases x with
  | error e => rfl
  | ok a => exact hf a

theorem bind_eq_error : (x >>= f) = .error e ↔ x = .error e ∨ ∃ a, x = .ok a ∧ f a = .error e := by
  cases x with
  | error e' =>
    refine ⟨fun h => ?_, ?_⟩
    · cases h
      exact .inl rfl
    · rintro (h | ⟨a, h, _⟩)
      · cases h
        rfl
      · cases h
  | ok a =>
    refine ⟨fun h => .inr ⟨a, rfl, h⟩, ?_⟩
    rintro (h | ⟨a', h, hf⟩)
    · cases h
    · cases h
      exact hf

/-- The state that a computation ending in `pure` leaves. -/
theorem fst_of_pure {p : A × B} {a : A} {b : B} (h : (pure p : Except F (A × B)) = .ok (a, b)) :
    a = p.1 :=
  (congrArg Prod.fst (Except.ok.inj h)).symm

/-! ### Postconditions -/

/-- A computation faults only as `E` allows, and what it returns meets `Q`. -/
def Ends (E : F → Prop) (Q : A → Prop) : Except F A → Prop
  | .error e => E e
  | .ok a => Q a

variable {E : F → Prop}

theorem Ends.bind {P : A → Prop} {Q : B → Prop} (hx : Ends E P x) (hf : ∀ a, P a → Ends E Q (f a)) :
    Ends E Q (x >>= f) := by
  cases x with
  | error e => exact hx
  | ok a => exact hf a hx

variable {Q : A → Prop}

theorem Ends.mono {P : A → Prop} (hx : Ends E P x) (h : ∀ a, P a → Q a) : Ends E Q x := by
  cases x with
  | error e => exact hx
  | ok a => exact h a hx

theorem Ends.of_ok {a : A} (hx : Ends E Q x) (h : x = .ok a) : Q a := by
  subst h
  exact hx

theorem Ends.not_error (hx : Ends E Q x) (he : ¬E e) : x ≠ .error e := by
  intro h
  subst h
  exact he hx

end Except

/-! ### Reachable states -/

variable {S C R F : Type} {ok : S → C → Prop} {Q : S → C → S × R → Prop}

/-- The states reached from `s₀` by calls that meet `ok` in the state they are made in. -/
inductive Reach (step : S → C → Except F (S × R)) (ok : S → C → Prop) (s₀ : S) : S → Prop where
  | refl : Reach step ok s₀ s₀
  | next {s s' : S} {c : C} {r : R} :
      Reach step ok s₀ s → ok s c → step s c = .ok (s', r) → Reach step ok s₀ s'

variable {step : S → C → Except F (S × R)} {s : S}

theorem Reach.invariant {s₀ : S} {P : S → Prop} (h0 : P s₀)
    (hstep : ∀ {s s' c r}, P s → ok s c → step s c = .ok (s', r) → P s') (h : Reach step ok s₀ s) :
    P s := by
  induction h with
  | refl => exact h0
  | next _ hok hs ih => exact hstep ih hok hs

/-- Make the calls of a list one after the other, and collect what they return. -/
def trace (step : S → C → Except F (S × R)) : S → List C → Except F (S × List R)
  | s, [] => .ok (s, [])
  | s, c :: calls => do
    let (s', r) ← step s c
    let (s'', rs) ← trace step s' calls
    pure (s'', r :: rs)

variable {calls : List C} {rs : List R}

theorem trace_cons {s' s'' : S} {c : C} {r : R} (h : step s c = .ok (s', r))
    (hrest : trace step s' calls = .ok (s'', rs)) :
    trace step s (c :: calls) = .ok (s'', r :: rs) := by
  unfold trace
  rw [h]
  show (trace step s' calls >>= fun p => pure (p.1, r :: p.2)) = _
  rw [hrest]
  rfl

theorem trace_cons_ok {s'' : S} {c : C} (h : trace step s (c :: calls) = .ok (s'', rs)) :
    ∃ s' r rs', step s c = .ok (s', r) ∧ trace step s' calls = .ok (s'', rs') ∧ rs = r :: rs' := by
  obtain ⟨⟨s', r⟩, hstep, h⟩ := bind_eq_ok.mp h
  obtain ⟨⟨s₂, rs'⟩, hrest, hpure⟩ := bind_eq_ok.mp h
  cases hpure
  exact ⟨s', r, rs', hstep, hrest, rfl⟩

theorem Reach.of_trace {s₀ s' : S} (h : Reach step (fun _ _ => True) s₀ s)
    (htrace : trace step s calls = .ok (s', rs)) : Reach step (fun _ _ => True) s₀ s' := by
  induction calls generalizing s rs with
  | nil =>
    cases htrace
    exact h
  | cons c calls ih =>
    obtain ⟨t, r, rs', hstep, hrest, -⟩ := trace_cons_ok htrace
    exact ih (h.next trivial hstep) hrest

/-! ### Calls that return -/

/-- Every call of a run returns, and its result meets `Q` with the state it is made in. -/
def EachCall (step : S → C → Except F (S × R)) (Q : S → C → S × R → Prop) : S → List C → Prop
  | _, [] => True
  | s, c :: calls => ∃ s' r, step s c = .ok (s', r) ∧ Q s c (s', r) ∧ EachCall step Q s' calls

/-- Every call that a run comes to meets `ok` in the state it is made in. -/
def EachState (step : S → C → Except F (S × R)) (ok : S → C → Prop) : S → List C → Prop
  | _, [] => True
  | s, c :: calls => ok s c ∧ ∀ s' r, step s c = .ok (s', r) → EachState step ok s' calls

/-- What one call keeps and makes right, if it meets `ok`, holds of the calls of a run. -/
theorem EachState.eachCall {J : S → Prop} (h0 : J s)
    (hstep : ∀ s c, J s → ok s c → ∃ s' r, step s c = .ok (s', r) ∧ Q s c (s', r) ∧ J s')
    (h : EachState step ok s calls) : EachCall step Q s calls := by
  induction calls generalizing s with
  | nil => trivial
  | cons c calls ih =>
    obtain ⟨s', r, hs, hq, hJ⟩ := hstep s c h0 h.1
    exact ⟨s', r, hs, hq, ih hJ (h.2 s' r hs)⟩

/-- Where a call is right exactly if it meets `ok`, so are the calls of a run. -/
theorem eachCall_iff_eachState {J : S → Prop}
    (h0 : J s) (hJ : ∀ s c s' r, J s → step s c = .ok (s', r) → J s')
    (hstep : ∀ s c, J s → ((∃ s' r, step s c = .ok (s', r) ∧ Q s c (s', r)) ↔ ok s c)) :
    EachCall step Q s calls ↔ EachState step ok s calls := by
  refine ⟨fun h => ?_, EachState.eachCall h0 fun s c hs hok => ?_⟩
  · induction calls generalizing s with
    | nil => trivial
    | cons c calls ih =>
      obtain ⟨s', r, hs, hq, hrest⟩ := h
      refine ⟨(hstep s c h0).mp ⟨s', r, hs, hq⟩, ?_⟩
      intro t r' ht
      rw [hs] at ht
      cases ht
      exact ih (hJ s c s' r h0 hs) hrest
  · obtain ⟨s', r, hstep, hq⟩ := (hstep s c hs).mpr hok
    exact ⟨s', r, hstep, hq, hJ s c s' r hs hstep⟩

end Runs
