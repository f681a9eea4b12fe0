/-
Handles that a library hands out and takes back.

A ledger is the list of the calls that hand out a handle, take one back, or use one in
between.  A caller is disciplined if it gives a function of the library nothing but a handle
of the right kind that is out: then no handle is taken back twice, or used after that.

`Owns` is how discipline is proved.  It keeps the list of the handles that are out, up to
order, and there is one rule for each kind of call.
-/
import Mathlib.Data.List.Perm.Basic

/-- A handle: its kind, and a number that no other handle has. -/
abbrev Handle (K : Type) := K × ℕ

/-- A call of the library.  A pointer that is no handle is none. -/
inductive HandleCall (K : Type) where
  /-- A handle is handed out. -/
  | obtain (h : Handle K)
  /-- The function that takes back handles of that kind is given a pointer. -/
  | release (kind : K) (ptr : Option (Handle K))
  /-- Any other function for handles of that kind is given a pointer. -/
  | use (kind : K) (ptr : Option (Handle K))
  deriving DecidableEq

structure Ledger (K : Type) where
  /-- The number of the next handle -/
  next : ℕ
  calls : List (HandleCall K)

namespace Ledger

open List

variable {K : Type}

def empty : Ledger K where
  next := 0
  calls := []

/-- The handle handed out is `(kind, l.next)`. -/
def obtain (l : Ledger K) (kind : K) : Ledger K where
  next := l.next + 1
  calls := l.calls ++ [.obtain (kind, l.next)]

def release (l : Ledger K) (kind : K) (ptr : Option (Handle K)) : Ledger K :=
  { l with calls := l.calls ++ [.release kind ptr] }

def use (l : Ledger K) (kind : K) (ptr : Option (Handle K)) : Ledger K :=
  { l with calls := l.calls ++ [.use kind ptr] }

/-! ### Discipline -/

/-- The handle has been handed out, and not been taken back. -/
def Out (calls : List (HandleCall K)) (h : Handle K) : Prop :=
  .obtain h ∈ calls ∧ ∀ kind, .release kind (some h) ∉ calls

/-- What may be done after the calls before it. -/
def Allowed (before : List (HandleCall K)) : HandleCall K → Prop
  | .obtain _ => True
  | .release kind ptr => ∃ h, ptr = some h ∧ h.1 = kind ∧ Out before h
  | .use kind ptr => ∃ h, ptr = some h ∧ h.1 = kind ∧ Out before h

def Disciplined (calls : List (HandleCall K)) : Prop :=
  ∀ before call after, calls = before ++ call :: after → Allowed before call

/-- How often a handle has been taken back. -/
def releases [DecidableEq K] (h : Handle K) (calls : List (HandleCall K)) : ℕ :=
  calls.countP fun
    | .release _ ptr => ptr = some h
    | _ => false

theorem Disciplined.concat {calls : List (HandleCall K)} {call : HandleCall K}
    (h : Disciplined calls) (hcall : Allowed calls call) : Disciplined (calls ++ [call]) := by
  intro before call' after heq
  rcases eq_nil_or_concat after with rfl | ⟨after, last, rfl⟩
  · obtain ⟨rfl, hlast⟩ := append_inj' heq rfl
    cases hlast
    exact hcall
  · rw [concat_eq_append, ← cons_append, ← append_assoc] at heq
    exact h before call' after (append_inj' heq rfl).1

/-! ### Owning handles -/

variable [DecidableEq K]

/-- These handles are out, and nothing has gone wrong so far. -/
structure Owns (l : Ledger K) (out : List (Handle K)) : Prop where
  nodup : out.Nodup
  mem_iff : ∀ h, h ∈ out ↔ Out l.calls h
  fresh : ∀ h, .obtain h ∈ l.calls → h.2 < l.next
  obtained : ∀ h kind, .release kind (some h) ∈ l.calls → .obtain h ∈ l.calls
  disciplined : Disciplined l.calls
  once : ∀ h, .obtain h ∈ l.calls → releases h l.calls = if h ∈ out then 0 else 1

variable {l : Ledger K} {out out' : List (Handle K)} {h : Handle K} {kind : K}

theorem owns_empty : (empty : Ledger K).Owns [] where
  nodup := nodup_nil
  mem_iff := fun h => iff_of_false not_mem_nil fun hout => (nomatch hout.1)
  fresh := nofun
  obtained := nofun
  disciplined := fun before call after heq => by simp [empty] at heq
  once := nofun

theorem Owns.perm (hl : l.Owns out) (hperm : out.Perm out') : l.Owns out' where
  nodup := hperm.nodup hl.nodup
  mem_iff := fun h => hperm.mem_iff.symm.trans (hl.mem_iff h)
  fresh := hl.fresh
  obtained := hl.obtained
  disciplined := hl.disciplined
  once := fun h hmem => by
    rw [hl.once h hmem]
    simp only [hperm.mem_iff]

theorem Owns.obtain (hl : l.Owns out) (kind : K) :
    (l.obtain kind).Owns ((kind, l.next) :: out) := by
  have hnew : HandleCall.obtain (kind, l.next) ∉ l.calls := fun hmem =>
    Nat.lt_irrefl _ (hl.fresh _ hmem)
  have hnot : (kind, l.next) ∉ out := fun hmem => hnew ((hl.mem_iff _).mp hmem).1
  have hobtain (h : Handle K) : HandleCall.obtain h ∈ (l.obtain kind).calls
      ↔ HandleCall.obtain h ∈ l.calls ∨ h = (kind, l.next) := by
    simp [Ledger.obtain]
  have hrelease (h : Handle K) (k : K) : HandleCall.release k (some h) ∈ (l.obtain kind).calls
      ↔ HandleCall.release k (some h) ∈ l.calls := by
    simp [Ledger.obtain]
  refine ⟨nodup_cons.mpr ⟨hnot, hl.nodup⟩, fun h => ?_, fun h hmem => ?_, fun h k hmem => ?_,
    hl.disciplined.concat trivial, fun h hmem => ?_⟩
  · rw [mem_cons, hl.mem_iff, Out, Out, hobtain]
    simp only [hrelease]
    constructor
    · rintro (rfl | ⟨hin, hnone⟩)
      · exact ⟨.inr rfl, fun k hk => hnew (hl.obtained _ k hk)⟩
      · exact ⟨.inl hin, hnone⟩
    · rintro ⟨hin | rfl, hnone⟩
      · exact .inr ⟨hin, hnone⟩
      · exact .inl rfl
  · rcases (hobtain h).mp hmem with hin | rfl
    · exact Nat.lt_succ_of_lt (hl.fresh h hin)
    · exact Nat.lt_succ_self _
  · exact (hobtain h).mpr (.inl (hl.obtained h k ((hrelease h k).mp hmem)))
  · have hcount : releases h (l.obtain kind).calls = releases h l.calls := by
      simp [releases, Ledger.obtain]
    rw [hcount]
    rcases (hobtain h).mp hmem with hin | rfl
    · have hne : h ≠ (kind, l.next) := fun heq => hnew (heq ▸ hin)
      rw [hl.once h hin]
      simp [hne]
    · rw [if_pos mem_cons_self, releases, countP_eq_zero]
      intro call hcall
      cases call with
      | obtain _ | use _ _ => exact Bool.false_ne_true
      | release k ptr =>
        simp only [decide_eq_true_eq]
        rintro rfl
        exact hnew (hl.obtained _ k hcall)

theorem Owns.release (hl : l.Owns (h :: out)) : (l.release h.1 (some h)).Owns out := by
  obtain ⟨hnot, hnodup⟩ := nodup_cons.mp hl.nodup
  have hout := (hl.mem_iff h).mp mem_cons_self
  have hobtain (h' : Handle K) : HandleCall.obtain h' ∈ (l.release h.1 (some h)).calls
      ↔ HandleCall.obtain h' ∈ l.calls := by
    simp [Ledger.release]
  have hrelease (h' : Handle K) (k : K) :
      HandleCall.release k (some h') ∈ (l.release h.1 (some h)).calls
        ↔ HandleCall.release k (some h') ∈ l.calls ∨ (k = h.1 ∧ h' = h) := by
    simp [Ledger.release]
  refine ⟨hnodup, fun h' => ?_, fun h' hmem => hl.fresh h' ((hobtain h').mp hmem),
    fun h' k hmem => ?_, hl.disciplined.concat ⟨h, rfl, rfl, hout⟩, fun h' hmem => ?_⟩
  · have hbefore := hl.mem_iff h'
    rw [Out, hobtain]
    simp only [hrelease]
    constructor
    · intro hmem
      have hne : h' ≠ h := fun heq => hnot (heq ▸ hmem)
      obtain ⟨hin, hnone⟩ := hbefore.mp (mem_cons_of_mem _ hmem)
      exact ⟨hin, fun k => not_or.mpr ⟨hnone k, fun heq => hne heq.2⟩⟩
    · rintro ⟨hin, hnone⟩
      have hmem := hbefore.mpr ⟨hin, fun k hk => hnone k (.inl hk)⟩
      refine (mem_cons.mp hmem).resolve_left fun heq => hnone h.1 (.inr ⟨rfl, heq⟩)
  · rw [hobtain]
    rcases (hrelease h' k).mp hmem with hold | ⟨-, rfl⟩
    · exact hl.obtained h' k hold
    · exact hout.1
  · have hbefore := hl.once h' ((hobtain h').mp hmem)
    have hcount : releases h' (l.release h.1 (some h)).calls
        = releases h' l.calls + if h = h' then 1 else 0 := by
      simp [releases, Ledger.release, countP_append, countP_singleton]
    rw [hcount, hbefore]
    by_cases heq : h = h'
    · subst heq
      simp [hnot]
    · simp [heq, Ne.symm heq]

theorem Owns.use (hl : l.Owns out) (hmem : h ∈ out) : (l.use h.1 (some h)).Owns out := by
  have hout := (hl.mem_iff h).mp hmem
  have hobtain (h' : Handle K) : HandleCall.obtain h' ∈ (l.use h.1 (some h)).calls
      ↔ HandleCall.obtain h' ∈ l.calls := by
    simp [Ledger.use]
  have hrelease (h' : Handle K) (k : K) :
      HandleCall.release k (some h') ∈ (l.use h.1 (some h)).calls
        ↔ HandleCall.release k (some h') ∈ l.calls := by
    simp [Ledger.use]
  refine ⟨hl.nodup, fun h' => ?_, fun h' h => hl.fresh h' ((hobtain h').mp h),
    fun h' k h => (hobtain h').mpr (hl.obtained h' k ((hrelease h' k).mp h)),
    hl.disciplined.concat ⟨h, rfl, rfl, hout⟩, fun h' hin => ?_⟩
  · rw [hl.mem_iff, Out, Out, hobtain]
    simp only [hrelease]
  · rw [← hl.once h' ((hobtain h').mp hin)]
    simp [releases, Ledger.use]

/-- Give back a list of handles, one after the other. -/
def releaseAll (l : Ledger K) (hs : List (Handle K)) : Ledger K :=
  hs.foldl (fun l h => l.release h.1 (some h)) l

theorem Owns.releaseAll {hs : List (Handle K)} (hl : l.Owns (hs ++ out)) :
    (l.releaseAll hs).Owns out := by
  induction hs generalizing l with
  | nil => exact hl
  | cons h hs ih => exact ih hl.release

theorem Owns.released_once (hl : l.Owns []) (hmem : .obtain h ∈ l.calls) :
    releases h l.calls = 1 := by
  rw [hl.once h hmem]
  exact if_neg not_mem_nil

end Ledger
