/-
A list used as a table: look up the first element that matches, or change it in place.

`edit` changes the first match and appends a fresh element if there is none, as a table
does whose `add` returns what is there already.  A lookup after it sees the change if it
looks for the same thing, and nothing of it otherwise.

A sequence of changes that leave alone what they match by comes apart at each element: the
element sees those that match it, the rest of the list sees the others.

Where matching means having a certain key, a table without repeated keys keeps none, and
there erasing the first match leaves nothing to be found.
-/
import Mathlib.Data.List.Basic

namespace FirstMatch

open List

variable {α : Type} {l : List α}

/-- Change the first element that meets `p`, or `fresh` at the end. -/
def edit (p : α → Bool) (fresh : α) (f : α → α) : List α → List α
  | [] => [f fresh]
  | a :: l => if p a then f a :: l else a :: edit p fresh f l

variable {p q : α → Bool} {fresh : α} {f : α → α}

theorem find?_edit_self (hf : ∀ a, p (f a) = p a) (hfresh : p fresh = true) (l : List α) :
    (edit p fresh f l).find? p = some (f ((l.find? p).getD fresh)) := by
  induction l with
  | nil => rw [edit, find?_cons_of_pos (by rw [hf, hfresh]), find?_nil, Option.getD_none]
  | cons a l ih =>
    cases ha : p a with
    | true =>
      rw [edit, if_pos ha, find?_cons_of_pos (by rw [hf, ha]), find?_cons_of_pos ha,
        Option.getD_some]
    | false =>
      have hneg : ¬p a = true := by rw [ha]; exact Bool.false_ne_true
      rw [edit, if_neg hneg, find?_cons_of_neg hneg, find?_cons_of_neg hneg, ih]

theorem find?_edit_of_disjoint (hdisj : ∀ a, p a = true → q a = false)
    (hf : ∀ a, q (f a) = q a) (hfresh : p fresh = true) (l : List α) :
    (edit p fresh f l).find? q = l.find? q := by
  have hskip (a : α) (ha : p a = true) : ¬q (f a) = true := by
    rw [hf, hdisj a ha]
    exact Bool.false_ne_true
  induction l with
  | nil => rw [edit, find?_cons_of_neg (hskip fresh hfresh)]
  | cons a l ih =>
    cases ha : p a with
    | true =>
      have hq : ¬q a = true := by rw [hdisj a ha]; exact Bool.false_ne_true
      rw [edit, if_pos ha, find?_cons_of_neg (hskip a ha), find?_cons_of_neg hq]
    | false =>
      rw [edit, if_neg (by rw [ha]; exact Bool.false_ne_true), find?_cons, find?_cons,
        ih]

theorem filter_edit (hf : ∀ a, p (f a) = p a) (hfresh : p fresh = true) (l : List α) :
    (edit p fresh f l).filter (fun a => !p a) = l.filter fun a => !p a := by
  induction l with
  | nil => simp [edit, hf, hfresh]
  | cons a l ih =>
    cases ha : p a with
    | true => simp [edit, ha, hf]
    | false => simp [edit, ha, ih]

/-- A change gives the table back if it leaves the element it finds as it is. -/
theorem edit_eq_self_iff {a : α} (h : l.find? p = some a) :
    edit p fresh f l = l ↔ f a = a := by
  induction l with
  | nil => cases h
  | cons b l ih =>
    by_cases hb : p b = true
    · rw [find?_cons_of_pos hb, Option.some.injEq] at h
      subst h
      rw [edit, if_pos hb, cons.injEq]
      exact and_iff_left rfl
    · rw [find?_cons_of_neg hb] at h
      rw [edit, if_neg hb, cons.injEq, ih h]
      exact and_iff_right rfl

section Sequences

variable {ε : Type} {m : ε → α → Bool} {new : ε → α} {g : ε → α → α}

/-- Changes one after the other. -/
def edits (m : ε → α → Bool) (new : ε → α) (g : ε → α → α) (es : List ε) (l : List α) : List α :=
  es.foldl (fun l e => edit (m e) (new e) (g e) l) l

theorem edits_cons (hg : ∀ e e' a, m e (g e' a) = m e a) (es : List ε) (a : α) (l : List α) :
    edits m new g es (a :: l)
      = (es.filter (m · a)).foldl (fun a e => g e a) a
        :: edits m new g (es.filter fun e => !m e a) l := by
  induction es generalizing a l with
  | nil => rfl
  | cons e es ih =>
    have hsame : ∀ e', m e' (g e a) = m e' a := fun e' => hg e' e a
    cases he : m e a with
    | true =>
      have hstep : edits m new g (e :: es) (a :: l) = edits m new g es (g e a :: l) := by
        simp [edits, edit, he]
      rw [hstep, ih]
      simp [he, hsame]
    | false =>
      have hstep : edits m new g (e :: es) (a :: l)
          = edits m new g es (a :: edit (m e) (new e) (g e) l) := by
        simp [edits, edit, he]
      rw [hstep, ih]
      simp [he, edits]

theorem edits_nil_iff (es : List ε) : edits m new g es [] = [] ↔ es = [] := by
  constructor
  · intro h
    rcases eq_nil_or_concat' es with rfl | ⟨es', e, rfl⟩
    · rfl
    · rw [edits, foldl_concat] at h
      generalize es'.foldl _ _ = l at h
      cases l with
      | nil => cases h
      | cons a l =>
        rw [edit] at h
        split at h
        · cases h
        · cases h
  · rintro rfl
    rfl

end Sequences

section Keyed

variable {κ : Type} {key : α → κ} {x : κ}

/-- The keys of a table after a change of the element with key `x`. -/
theorem map_edit (hp : ∀ a, p a = true ↔ key a = x) (hf : ∀ a, key (f a) = key a)
    (hfresh : key fresh = x) (l : List α) :
    (x ∈ l.map key ∧ (edit p fresh f l).map key = l.map key) ∨
      (x ∉ l.map key ∧ (edit p fresh f l).map key = l.map key ++ [x]) := by
  induction l with
  | nil => exact .inr ⟨not_mem_nil, by rw [edit, map_singleton, hf, hfresh]; rfl⟩
  | cons a l ih =>
    by_cases ha : p a = true
    · left
      rw [edit, if_pos ha, map_cons, map_cons, hf, (hp a).mp ha]
      exact ⟨mem_cons_self, rfl⟩
    · have hne : x ≠ key a := fun h => ha ((hp a).mpr h.symm)
      rw [edit, if_neg ha, map_cons, map_cons]
      rcases ih with ⟨hmem, heq⟩ | ⟨hmem, heq⟩
      · exact .inl ⟨mem_cons_of_mem _ hmem, by rw [heq]⟩
      · exact .inr ⟨fun h => (mem_cons.mp h).elim hne hmem, by rw [heq]; rfl⟩

theorem nodup_map_edit (hp : ∀ a, p a = true ↔ key a = x) (hf : ∀ a, key (f a) = key a)
    (hfresh : key fresh = x) (hl : (l.map key).Nodup) :
    ((edit p fresh f l).map key).Nodup := by
  rcases map_edit hp hf hfresh l with ⟨-, heq⟩ | ⟨hmem, heq⟩
  · rwa [heq]
  · rw [heq]
    refine nodup_append.mpr ⟨hl, by simp, ?_⟩
    intro y hy z hz heq
    rw [mem_singleton.mp hz] at heq
    exact hmem (heq ▸ hy)

/-- Without repeated keys, the first match is the only one. -/
theorem find?_eraseP_self (hp : ∀ a, p a = true ↔ key a = x)
    (hl : (l.map key).Nodup) : (l.eraseP p).find? p = none := by
  induction l with
  | nil => rfl
  | cons a l ih =>
    rw [map_cons, nodup_cons] at hl
    by_cases ha : p a = true
    · rw [eraseP_cons_of_pos ha, find?_eq_none]
      intro b hb hmatch
      rw [(hp a).mp ha] at hl
      exact hl.1 ((hp b).mp hmatch ▸ mem_map_of_mem hb)
    · rw [eraseP_cons_of_neg ha, find?_cons_of_neg ha]
      exact ih hl.2

end Keyed

theorem find?_eraseP_of_disjoint (hdisj : ∀ a, p a = true → q a = false) (l : List α) :
    (l.eraseP p).find? q = l.find? q := by
  induction l with
  | nil => rfl
  | cons a l ih =>
    by_cases ha : p a = true
    · have hq : ¬q a = true := by rw [hdisj a ha]; exact Bool.false_ne_true
      rw [eraseP_cons_of_pos ha, find?_cons_of_neg hq]
    · rw [eraseP_cons_of_neg ha, find?_cons, find?_cons, ih]

end FirstMatch
