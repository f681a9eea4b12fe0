/-
A circular array behind a queue.

Entry number `k` of a log is stored at place `k` modulo the size of an array.  Entries are
taken out at the front, and a place may be written again once its entry has been taken out.
`Holds` says that the array still has the entries from number `first` on; with fewer
waiting than there are places, the next place to be written is not one of theirs.
-/
import Mathlib.Data.List.Nodup
import Mathlib.Data.Nat.ModEq

namespace CircularLog

open List

variable {α : Type} {m first : ℕ} {array : ℕ → α} {log : List α}

/-- Two numbers closer than `m` have different places. -/
theorem mod_ne_mod {m k n : ℕ} (hlt : k < n) (hclose : n - k < m) : k % m ≠ n % m := by
  intro heq
  have hdvd : m ∣ n - k := (Nat.modEq_iff_dvd' hlt.le).mp heq
  have hle := Nat.le_of_dvd (by omega) hdvd
  omega

/-- What has been taken out of a log in order grows by the entry that comes next. -/
theorem prefix_concat_next {taken : List α} (h : taken <+: log) (hlt : taken.length < log.length) :
    taken ++ [log[taken.length]] <+: log := by
  obtain ⟨rest, rfl⟩ := h
  cases rest with
  | nil => simp at hlt
  | cons x rest =>
    simp

/-- The places of `n` entries from number `first` on. -/
def places (m first n : ℕ) : List ℕ :=
  (List.range' first n).map (· % m)

theorem places_succ (m first n : ℕ) :
    places m first (n + 1) = places m first n ++ [(first + n) % m] := by
  rw [places, range'_1_concat, map_append]
  rfl

theorem places_cons (m first n : ℕ) :
    places m first (n + 1) = first % m :: places m (first + 1) n := rfl

/-- The array has every entry of the log from number `first` on in its place. -/
def Holds (m : ℕ) (array : ℕ → α) (log : List α) (first : ℕ) : Prop :=
  ∀ k (_ : first ≤ k) (hk : k < log.length), array (k % m) = log[k]

theorem Holds.pop (h : Holds m array log first) : Holds m array log (first + 1) :=
  fun k hfirst hk => h k (by omega) hk

/-- Writing the next place disturbs no entry that waits. -/
theorem Holds.store (h : Holds m array log first) (hroom : log.length < first + m) (x : α) :
    Holds m (Function.update array (log.length % m) x) log first := by
  intro k hfirst hk
  rw [Function.update_of_ne (mod_ne_mod hk (by omega))]
  exact h k hfirst hk

theorem Holds.push (h : Holds m array log first) {x : α} (hx : array (log.length % m) = x) :
    Holds m array (log ++ [x]) first := by
  intro k hfirst hk
  by_cases hold : k < log.length
  · rw [getElem_append_left hold]
    exact h k hfirst hold
  · have hlast : k = log.length := by
      rw [length_append, length_singleton] at hk
      omega
    subst hlast
    rw [getElem_concat_length rfl]
    exact hx

theorem Holds.map_places (h : Holds m array log first) {n : ℕ} (hn : first + n = log.length) :
    (places m first n).map array = log.drop first := by
  induction n generalizing first with
  | zero =>
    rw [drop_eq_nil_of_le (by omega)]
    rfl
  | succ n ih =>
    have hlt : first < log.length := by omega
    rw [places_cons, map_cons, ih h.pop (by omega), h first (Nat.le_refl _) hlt,
      ← drop_eq_getElem_cons hlt]

theorem nodup_places (first : ℕ) {n : ℕ} (hn : n ≤ m) : (places m first n).Nodup := by
  refine List.Nodup.map_on ?_ nodup_range'
  intro x hx y hy heq
  rw [mem_range'_1] at hx hy
  rcases Nat.lt_trichotomy x y with hlt | rfl | hlt
  · exact absurd heq (mod_ne_mod hlt (by omega))
  · rfl
  · exact absurd heq.symm (mod_ne_mod hlt (by omega))

end CircularLog
