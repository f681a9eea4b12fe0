/-
The intrusive lists are lists.

Every operation replaces a part of the ring by another: nothing by an item, an item by nothing,
an item by an item.  So `IsRing.splice` has the whole argument, and an operation has to show
only where its assignments lead.  A safe loop holds the item behind the one it visits; since
only visited items are deleted, that item is not among them, and the loop finds the rest of
the list as it was.
-/
import Mathlib.Data.List.Lemmas
import Sysbench.Lib.Schedule
import Sysbench.Model.SbList

namespace Sysbench.SbList

open List Ring Schedule

variable {A : Type} [DecidableEq A] {l : Links A} {head item old : A} {items xs ys : List A}

/-! ### Operations -/

theorem isRing_init (l : Links A) (head : A) : IsRing (sbListInit l head) head [] :=
  ⟨nodup_singleton head, by simp [Segment, sbListInit, Links.init]⟩

theorem isRing_add (h : IsRing l head items) (hitem : item ∉ head :: items) :
    IsRing (sbListAdd l item head) head (item :: items) := by
  have hring : IsRing l head ([] ++ [] ++ items) := h
  have hhead : item ≠ head := ne_of_not_mem_cons hitem
  have hput : sbListAdd l item head = l.put head item (after items head) := by
    simp [sbListAdd, setNext, setPrev, Links.put, hhead, ← hring.middle.1]
  rw [hput]
  exact hring.put hitem

theorem isRing_delete (h : IsRing l head (xs ++ [old] ++ ys)) :
    IsRing (sbListDelete l old) head (xs ++ ys) := by
  obtain ⟨⟨-, hprev⟩, hnext, -⟩ := h.middle
  have hne := h.ends_ne.2
  have hlinks : sbListDelete l old = ⟨Function.update l.next (before head xs) (after ys head),
      Function.update l.prev (after ys head) (before head xs)⟩ := by
    simp [sbListDelete, setNext, setPrev, hnext, hprev, hne]
  have hnodup : (head :: (xs ++ [] ++ ys)).Nodup := by
    exact List.Nodup.sublist (by simp) h.nodup
  have hspliced : IsRing (sbListDelete l old) head (xs ++ [] ++ ys) := by
    refine h.splice hnodup ?_ ?_ ?_
    · simp [Segment, hlinks]
    · intro c hc _
      simp [hlinks, hc]
    · intro c hc _
      simp [hlinks, hc]
  rw [append_nil] at hspliced
  exact hspliced

theorem isRing_replace (h : IsRing l head (xs ++ [old] ++ ys)) (hitem : item ∉ head :: (xs ++ ys)) :
    IsRing (sbListReplace l item old) head (xs ++ [item] ++ ys) := by
  obtain ⟨⟨-, hprev⟩, hnext, -⟩ := h.middle
  have hafter : item ≠ after ys head := by
    rintro rfl
    have hmem := after_mem ys head
    simp only [mem_cons, mem_append] at hmem hitem
    exact hitem (hmem.imp_right .inr)
  have hput : sbListReplace l item old = l.put (before head xs) item (after ys head) := by
    simp [sbListReplace, setNext, setPrev, Links.put, hnext, hprev, hafter]
  rw [hput]
  exact h.put hitem

/-! ### Sequences -/

/-- What an operation does to the sequence of items. -/
def ListOp.spec (items : List A) : ListOp A → List A
  | .init => []
  | .add item => item :: items
  | .addTail item => items ++ [item]
  | .delete oldItem => items.erase oldItem
  | .replace item oldItem => items.map fun a => if a = oldItem then item else a

/-- What is put into the list is not yet in it, what is taken out is. -/
def ListOp.Allowed (head : A) (items : List A) : ListOp A → Prop
  | .init => True
  | .add item | .addTail item => item ∉ head :: items
  | .delete oldItem => oldItem ∈ items
  | .replace item oldItem => oldItem ∈ items ∧ item ∉ head :: items

theorem isRing_erase (h : IsRing l head items) (hold : old ∈ items) :
    IsRing (sbListDelete l old) head (items.erase old) := by
  obtain ⟨xs, ys, -, hitems, herase⟩ := exists_erase_eq hold
  rw [herase]
  apply isRing_delete
  rw [append_assoc, singleton_append, ← hitems]
  exact h

theorem isRing_map (h : IsRing l head items) (hold : old ∈ items) (hitem : item ∉ head :: items) :
    IsRing (sbListReplace l item old) head (items.map fun a => if a = old then item else a) := by
  obtain ⟨xs, ys, rfl⟩ := append_of_mem hold
  have hnodup := nodup_middle.mp (nodup_cons.mp h.nodup).2
  obtain ⟨hxs, hys⟩ := not_or.mp (mem_append.not.mp (nodup_cons.mp hnodup).1)
  have hkeep : ∀ zs : List A, old ∉ zs → (zs.map fun a => if a = old then item else a) = zs := by
    intro zs hzs
    conv_rhs => rw [← map_id zs]
    refine map_congr_left fun a ha => if_neg ?_
    rintro rfl
    exact hzs ha
  rw [map_append, map_cons, hkeep xs hxs, hkeep ys hys, if_pos rfl, append_cons]
  refine isRing_replace (by rwa [append_cons] at h) fun hc => hitem ?_
  simp only [mem_cons, mem_append] at hc ⊢
  tauto

theorem isRing_apply (h : IsRing l head items) (op : ListOp A) (hop : op.Allowed head items) :
    IsRing (op.apply head l) head (op.spec items) := by
  cases op with
  | init => exact isRing_init l head
  | add item => exact isRing_add h hop
  | addTail item => exact h.addTail hop
  | delete old => exact isRing_erase h hop
  | replace item old => exact isRing_map h hop.1 hop.2

/-! ### Loops -/

theorem forEachFrom_eq {pos : A} {fuel : ℕ} (h : Walk l head pos xs) (hhead : head ∉ xs)
    (hfuel : xs.length < fuel) : forEachFrom l head fuel pos = some xs := by
  induction xs generalizing pos fuel with
  | nil =>
    obtain ⟨fuel, rfl⟩ := Nat.exists_eq_add_one_of_ne_zero hfuel.ne'
    simp [forEachFrom, show pos = head from h]
  | cons x xs ih =>
    obtain ⟨fuel, rfl⟩ := Nat.exists_eq_add_one_of_ne_zero (Nat.ne_zero_of_lt hfuel)
    obtain ⟨rfl, hrest⟩ := h
    have hpos : pos ≠ head := fun hc => hhead (hc ▸ mem_cons_self)
    have hxs := ih hrest (fun hc => hhead (mem_cons_of_mem _ hc)) (Nat.lt_of_succ_lt_succ hfuel)
    simp [forEachFrom, hpos, hxs]

theorem isRing_deletes {ds ws rest : List A} (h : IsRing l head (ws ++ rest)) (hds : ds.Nodup)
    (hsub : ds ⊆ ws) : IsRing (ds.foldl sbListDelete l) head (ws.diff ds ++ rest) := by
  induction ds generalizing l ws with
  | nil => exact h
  | cons d ds ih =>
    obtain ⟨hd, hds⟩ := nodup_cons.mp hds
    obtain ⟨hmem, hsub⟩ := cons_subset.mp hsub
    rw [diff_cons]
    refine ih ?_ hds fun a ha => ?_
    · rw [← erase_append_left rest hmem]
      exact isRing_erase h (mem_append_left rest hmem)
    · have hne : a ≠ d := fun hc => hd (hc ▸ ha)
      exact (mem_erase_of_ne hne).mpr (hsub ha)

/-- The body deletes only items it has visited and that are still there; `kept` are those. -/
def Deletes (body : List A → List A) : (visited kept todo : List A) → Prop
  | _, _, [] => True
  | visited, kept, x :: todo =>
    let ds := body (visited ++ [x])
    (ds.Nodup ∧ ds ⊆ kept ++ [x]) ∧ Deletes body (visited ++ [x]) ((kept ++ [x]).diff ds) todo

/-- The items that are left in the end. -/
def keptAfter (body : List A → List A) : (visited kept todo : List A) → List A
  | _, kept, [] => kept
  | visited, kept, x :: todo =>
    keptAfter body (visited ++ [x]) ((kept ++ [x]).diff (body (visited ++ [x]))) todo

/-- **A safe loop visits what is left to visit**, whatever the body deletes of the rest. -/
theorem forEachSafeFrom_eq {body : List A → List A} {visited kept todo : List A} {fuel : ℕ}
    (h : IsRing l head (kept ++ todo)) (hdel : Deletes body visited kept todo)
    (hfuel : todo.length < fuel) :
    ∃ l', forEachSafeFrom body head fuel visited l (after todo head) (l.next (after todo head))
        = some (visited ++ todo, l') ∧ IsRing l' head (keptAfter body visited kept todo) := by
  induction todo generalizing l visited kept fuel with
  | nil =>
    obtain ⟨fuel, rfl⟩ := Nat.exists_eq_add_one_of_ne_zero hfuel.ne'
    rw [append_nil] at h
    exact ⟨l, by simp [forEachSafeFrom], h⟩
  | cons x todo ih =>
    obtain ⟨fuel, rfl⟩ := Nat.exists_eq_add_one_of_ne_zero (Nat.ne_zero_of_lt hfuel)
    rw [append_cons] at h
    obtain ⟨-, htemp, -⟩ := h.middle
    have hx : x ≠ head := by
      have hhead := (nodup_cons.mp h.nodup).1
      rintro rfl
      simp at hhead
    obtain ⟨⟨hds, hsub⟩, hdel⟩ := hdel
    have hring := isRing_deletes h hds hsub
    obtain ⟨l', hloop, hl'⟩ := ih hring hdel (Nat.lt_of_succ_lt_succ hfuel)
    refine ⟨l', ?_, hl'⟩
    have hpos : after (x :: todo) head = x := rfl
    rw [hpos, htemp, forEachSafeFrom, if_neg hx]
    simpa using hloop

/-! ### Refinement -/

/-- The pointers are those of a list with these items. -/
structure IsList (head : A) (l : Links A) (items : List A) : Prop where
  nodup : items.Nodup
  inverse : ∀ a ∈ head :: items, l.prev (l.next a) = a ∧ l.next (l.prev a) = a
  visits : ∀ fuel, items.length < fuel → sbListForEach l head fuel = some items

theorem isList_of_isRing (h : IsRing l head items) : IsList head l items where
  nodup := (nodup_cons.mp h.nodup).2
  inverse := fun _ ha => h.inverse ha
  visits := fun _ hfuel => forEachFrom_eq h.walk (nodup_cons.mp h.nodup).1 hfuel

/-- Pointers and sequence agree, and a safe loop visits the sequence and leaves what its body
does not delete. -/
structure Refines (head : A) (s : Links A × List A) : Prop where
  isList : IsList head s.1 s.2
  safe : ∀ body, Deletes body [] [] s.2 → ∀ fuel, s.2.length < fuel →
    ∃ l', sbListForEachSafe body s.1 head fuel = some (s.2, l') ∧
      IsList head l' (keptAfter body [] [] s.2)

theorem refines_of_isRing (h : IsRing l head items) : Refines head (l, items) where
  isList := isList_of_isRing h
  safe := by
    intro body hdel fuel hfuel
    have hring : IsRing l head ([] ++ [] ++ items) := h
    obtain ⟨l', hloop, hl'⟩ := forEachSafeFrom_eq hring hdel hfuel
    rw [← hring.middle.1] at hloop
    exact ⟨l', hloop, isList_of_isRing hl'⟩

/-- An operation on the pointers, beside the same operation on the sequence. -/
def listStep (head : A) (s : Links A × List A) (op : ListOp A) : Links A × List A :=
  (op.apply head s.1, op.spec s.2)

/-- **The operations on the pointers refine those on sequences**, throughout every run. -/
theorem list_ops_refine_sequences (l₀ : Links A) (head : A) (ops : List (ListOp A))
    (hops : Along (listStep head) (fun s op => op.Allowed head s.2) (sbListInit l₀ head, []) ops) :
    Always (listStep head) (Refines head) (sbListInit l₀ head, []) ops := by
  have hrings :
      Always (listStep head) (fun s => IsRing s.1 head s.2) (sbListInit l₀ head, []) ops :=
    always_of_along (fun s op h hop => isRing_apply h op hop) (isRing_init l₀ head) hops
  exact hrings.mono fun s h => refines_of_isRing h

/-- Both items that are left are deleted while the second one is visited. -/
theorem four_items_refine :
    let s : Links ℕ × List ℕ := (sbListInit ⟨id, id⟩ 0, [])
    let ops : List (ListOp ℕ) := [.add 2, .addTail 3, .add 1, .replace 4 2, .delete 1]
    let body := fun ws : List ℕ => if ws = [4, 3] then ws else []
    (Always (listStep 0) (Refines 0) s ops ∧ (ops.foldl (listStep 0) s).2 = [4, 3]) ∧
      Deletes body [] [] [4, 3] ∧ keptAfter body [] [] [4, 3] = [] := by
  refine ⟨⟨list_ops_refine_sequences _ 0 _ ?_, rfl⟩, ?_, rfl⟩
  · simp [Along, listStep, ListOp.Allowed, ListOp.spec]
  · simp [Deletes]

end Sysbench.SbList
