/-
Reading back what was written with delimiters.

A list of blocks, each led or ended by a delimiter that occurs in none of them, is read
back from their concatenation.  Padding to a width with a filler is read back up to the
fillers at the end.  A run of letters of one kind behind a letter of another is read
back from the right.
-/
import Mathlib.Data.List.DropRight
import Mathlib.Data.List.Forall2

namespace Delimited

open List

variable {α : Type}

/-! ### Lists side by side -/

variable {β : Type} {l : List α} {m : List β}

theorem map_eq_map_iff {γ : Type} {f : α → γ} {g : β → γ} :
    l.map f = m.map g ↔ List.Forall₂ (fun x y => f x = g y) l m := by
  rw [← forall₂_eq_eq_eq, forall₂_map_left_iff, forall₂_map_right_iff]

theorem forall₂_congr_mem {R S : α → β → Prop} (h : ∀ x ∈ l, ∀ y ∈ m, (R x y ↔ S x y)) :
    List.Forall₂ R l m ↔ List.Forall₂ S l m := by
  rw [forall₂_iff_get, forall₂_iff_get]
  refine and_congr_right fun _ => forall₃_congr fun i hl hm => ?_
  exact h _ (get_mem l _) _ (get_mem m _)

theorem exists_left_of_mem {R : α → β → Prop} {y : β} (h : List.Forall₂ R l m) (hy : y ∈ m) :
    ∃ x ∈ l, R x y := by
  induction h with
  | nil => cases hy
  | cons hr _ ih =>
    rcases mem_cons.mp hy with rfl | hy
    · exact ⟨_, mem_cons_self, hr⟩
    · obtain ⟨x, hx, hxy⟩ := ih hy
      exact ⟨x, mem_cons_of_mem _ hx, hxy⟩

/-! ### Blocks -/

variable {sep : α} {a b : List α}

/-- Two texts that run up to a delimiter, or to the end. -/
theorem append_inj_of_head {r r' : List α} (ha : sep ∉ a) (hb : sep ∉ b)
    (hr : ∀ x ∈ r.head?, x = sep) (hr' : ∀ x ∈ r'.head?, x = sep) (h : a ++ r = b ++ r') :
    a = b ∧ r = r' := by
  induction a generalizing b with
  | nil =>
    cases b with
    | nil => exact ⟨rfl, h⟩
    | cons y b =>
      have hy : y = sep := hr y (by rw [nil_append] at h; rw [h]; rfl)
      exact absurd (hy ▸ mem_cons_self) hb
  | cons x a ih =>
    cases b with
    | nil =>
      have hx : x = sep := hr' x (by rw [nil_append] at h; rw [← h]; rfl)
      exact absurd (hx ▸ mem_cons_self) ha
    | cons y b =>
      rw [cons_append, cons_append, cons.injEq] at h
      obtain ⟨rfl, h⟩ := h
      obtain ⟨rfl, hrest⟩ := ih (fun hc => ha (mem_cons_of_mem x hc))
        (fun hc => hb (mem_cons_of_mem x hc)) h
      exact ⟨rfl, hrest⟩

theorem trailing_inj (L : List (List α)) :
    ∀ {M : List (List α)}, (∀ l ∈ L, sep ∉ l) → (∀ m ∈ M, sep ∉ m) →
      L.flatMap (· ++ [sep]) = M.flatMap (· ++ [sep]) → L = M := by
  have hsep : ∀ (r : List α), ∀ x ∈ ([sep] ++ r).head?, x = sep := by
    intro r x hx
    exact (Option.some.inj hx).symm
  induction L with
  | nil =>
    intro M _ _ h
    cases M with
    | nil => rfl
    | cons m M => simp at h
  | cons l L ih =>
    intro M hL hM h
    cases M with
    | nil => simp at h
    | cons m M =>
      rw [flatMap_cons, flatMap_cons, append_assoc, append_assoc] at h
      obtain ⟨rfl, hrest⟩ := append_inj_of_head (hL l (by simp)) (hM m (by simp))
        (hsep _) (hsep _) h
      rw [singleton_append, singleton_append, cons_inj_right] at hrest
      rw [ih (fun k hk => hL k (by simp [hk])) (fun k hk => hM k (by simp [hk])) hrest]

/-- With one more delimiter at the end, the leading ones are the trailing ones of a text that
begins with a delimiter. -/
theorem flatMap_leading (L : List (List α)) :
    L.flatMap (sep :: ·) ++ [sep] = sep :: L.flatMap (· ++ [sep]) := by
  induction L with
  | nil => rfl
  | cons l L ih => rw [flatMap_cons, append_assoc, ih, flatMap_cons, append_assoc]; rfl

theorem leading_inj (L : List (List α)) {M : List (List α)} (hL : ∀ l ∈ L, sep ∉ l)
    (hM : ∀ m ∈ M, sep ∉ m) (h : L.flatMap (sep :: ·) = M.flatMap (sep :: ·)) : L = M := by
  have hmore := congrArg (· ++ [sep]) h
  simp only [flatMap_leading, cons_inj_right] at hmore
  exact trailing_inj L hL hM hmore

/-- A run of letters of one kind, behind a letter of another, is read back from the right. -/
theorem append_run_inj {p : α → Prop} {x y r r' : List α} (hr : ∀ a ∈ r, p a) (hr' : ∀ a ∈ r', p a)
    (hx : ∀ a ∈ x.getLast?, ¬p a) (hy : ∀ a ∈ y.getLast?, ¬p a) (h : x ++ r = y ++ r') :
    x = y ∧ r = r' := by
  have hempty : ∀ {u e s : List α}, (∀ a ∈ (u ++ e).getLast?, ¬p a) → (∀ a ∈ e ++ s, p a) →
      e = [] := by
    intro u e s hlast hall
    cases e using reverseRecOn with
    | nil => rfl
    | append_singleton e z =>
      refine absurd (hall z (by simp)) (hlast z ?_)
      rw [← append_assoc, getLast?_concat]
      rfl
  rcases append_eq_append_iff.mp h with ⟨e, rfl, rfl⟩ | ⟨e, rfl, rfl⟩
  · rw [hempty hy hr]
    simp
  · rw [hempty hx hr']
    simp

/-! ### Padding -/

variable [DecidableEq α]

/-- A text without the fillers at its end. -/
def strip (filler : α) (a : List α) : List α := a.rdropWhile (· = filler)

/-- Padded to a width, the two cannot be told apart. -/
def AlikeAt (filler : α) (w : ℕ) (a b : List α) : Prop :=
  a = b ∨ (a.length ≤ w ∧ b.length ≤ w ∧ strip filler a = strip filler b)

variable {filler : α} {w : ℕ}

theorem alikeAt_iff (ha : a.length ≤ w) (hb : b.length ≤ w) :
    AlikeAt filler w a b ↔ strip filler a = strip filler b := by
  refine ⟨?_, fun h => .inr ⟨ha, hb, h⟩⟩
  rintro (rfl | h)
  · rfl
  · exact h.2.2

theorem strip_append_replicate (filler : α) (a : List α) (k : ℕ) :
    strip filler (a ++ replicate k filler) = strip filler a := by
  induction k with
  | zero => rw [replicate_zero, append_nil]
  | succ k ih =>
    rw [replicate_succ', ← append_assoc, strip, rdropWhile_concat,
      if_pos (by simp)]
    exact ih

theorem rightpad_strip (a : List α) (h : a.length ≤ w) :
    rightpad w filler (strip filler a) = rightpad w filler a := by
  induction a using reverseRecOn with
  | nil => rfl
  | append_singleton a x ih =>
    rw [length_append, length_singleton] at h
    rw [strip, rdropWhile_concat]
    by_cases hx : x = filler
    · subst hx
      rw [if_pos (by simp)]
      refine (ih (by omega)).trans ?_
      have hsplit : w - a.length = w - (a ++ [x]).length + 1 := by
        rw [length_append, length_singleton]
        omega
      rw [rightpad, rightpad, hsplit, append_assoc]
      rfl
    · rw [if_neg (by simpa using hx)]

theorem rightpad_eq_iff :
    rightpad w filler a = rightpad w filler b ↔ AlikeAt filler w a b := by
  have hlong : ∀ {c : List α}, ¬c.length ≤ w → rightpad w filler c = c := by
    intro c hc
    rw [rightpad, Nat.sub_eq_zero_of_le (by omega), replicate_zero, append_nil]
  have hlen : ∀ (c : List α), (rightpad w filler c).length = max w c.length := by
    intro c
    rw [rightpad, length_append, length_replicate]
    omega
  refine ⟨fun h => ?_, ?_⟩
  · have hmax := (hlen a).symm.trans ((congrArg length h).trans (hlen b))
    by_cases ha : a.length ≤ w
    · have hb : b.length ≤ w := by omega
      refine .inr ⟨ha, hb, ?_⟩
      have hstrip := congrArg (strip filler) h
      rwa [rightpad, rightpad, strip_append_replicate, strip_append_replicate] at hstrip
    · rw [hlong ha, hlong (by omega)] at h
      exact .inl h
  · rintro (rfl | ⟨ha, hb, hstrip⟩)
    · rfl
    · rw [← rightpad_strip a ha, hstrip, rightpad_strip b hb]

end Delimited
