/-
Circular lists in memory.

A list is a head and its items, each of which points to the next and to the one before;
the last item and the head point to each other.  An empty list is a head that points to
itself.  Nothing in an item says whether it is a head: who walks along must compare with
the head it started from.  `IsRing` ties the pointers to the list of items, and `Walk` is
what is left of it for a reader who only follows `next`.  A reader who steps over the head
goes round and round: `cycle` is where it is, and the lemmas on it say when the head is in
the way.
-/
import Mathlib.Data.List.Chain
import Mathlib.Data.List.Nodup
import Sysbench.Lib.RoundRobin

namespace Ring

open List Function

/-- The pointers of all items and heads. -/
structure Links (A : Type) where
  next : A → A
  prev : A → A

variable {A : Type}

/-! ### Building -/

section Build

variable [DecidableEq A]

/-- Make `head` an empty list. -/
def Links.init (l : Links A) (head : A) : Links A where
  next := update l.next head head
  prev := update l.prev head head

/-- Put `item` in front of `head`, the four assignments in their order. -/
def Links.addTail (l : Links A) (item head : A) : Links A :=
  let l := { l with prev := update l.prev item (l.prev head) }
  let l := { l with next := update l.next item head }
  let l := { l with prev := update l.prev head item }
  { l with next := update l.next (l.prev item) item }

end Build

/-! ### What the pointers stand for -/

/-- From `a` to `b` through the items in between, in both directions. -/
def Segment (l : Links A) : A → List A → A → Prop
  | a, [], b => l.next a = b ∧ l.prev b = a
  | a, x :: xs, b => (l.next a = x ∧ l.prev x = a) ∧ Segment l x xs b

structure IsRing (l : Links A) (head : A) (items : List A) : Prop where
  nodup : (head :: items).Nodup
  segment : Segment l head items head

variable {l l' : Links A} {head : A} {items : List A}

variable {a b : A}

variable {xs : List A}

/-! ### Splices -/

/-- Both pointers between two items that follow one another. -/
def Linked (l : Links A) (a b : A) : Prop := l.next a = b ∧ l.prev b = a

theorem segment_iff_isChain : Segment l a xs b ↔ (a :: (xs ++ [b])).IsChain (Linked l) := by
  induction xs generalizing a with
  | nil => simp [Segment, Linked]
  | cons x xs ih => simp [Segment, Linked, ih]

theorem isChain_congr {L : List A} (h : L.IsChain (Linked l))
    (hnext : ∀ c ∈ L.dropLast, l'.next c = l.next c)
    (hprev : ∀ c ∈ L.tail, l'.prev c = l.prev c) : L.IsChain (Linked l') := by
  induction L with
  | nil => exact .nil
  | cons a L ih =>
    cases L with
    | nil => exact .singleton a
    | cons b L =>
      simp only [isChain_cons_cons, dropLast_cons_cons, mem_cons, tail_cons,
        forall_eq_or_imp] at *
      refine ⟨⟨hnext.1.trans h.1.1, hprev.1.trans h.1.2⟩, ih h.2 hnext.2 hprev.2⟩

/-- The item that a part of the ring follows. -/
def before (head : A) (xs : List A) : A := (head :: xs).getLast (cons_ne_nil head xs)

/-- The item that follows a part of the ring. -/
def after (ys : List A) (head : A) : A := ys.headD head

@[simp] theorem before_nil (head : A) : before head [] = head := rfl

@[simp] theorem after_nil (head : A) : after [] head = head := rfl

theorem dropLast_append_before (head : A) (xs : List A) :
    (head :: xs).dropLast ++ [before head xs] = head :: xs :=
  dropLast_append_getLast _

theorem after_cons_tail (ys : List A) (head : A) :
    after ys head :: (ys ++ [head]).tail = ys ++ [head] := by
  cases ys with
  | nil => rfl
  | cons y ys => rfl

/-- A ring, cut open in front of a part of it and behind. -/
theorem isChain_parts {mid ys : List A} :
    Segment l head (xs ++ mid ++ ys) head ↔
      (head :: xs).IsChain (Linked l) ∧ Segment l (before head xs) mid (after ys head) ∧
        (ys ++ [head]).IsChain (Linked l) := by
  have hlist : head :: (xs ++ mid ++ ys ++ [head])
      = (head :: xs).dropLast
        ++ before head xs :: (mid ++ after ys head :: (ys ++ [head]).tail) := by
    rw [after_cons_tail, append_cons (head :: xs).dropLast, dropLast_append_before]
    simp
  rw [segment_iff_isChain, segment_iff_isChain, hlist, isChain_split, dropLast_append_before,
    ← cons_append, isChain_split, cons_append, after_cons_tail]

/-- **A part of a ring may be replaced** by pointers that lead from the item before it to the item
behind it, if no others change. -/
theorem IsRing.splice {xs old new ys : List A} (h : IsRing l head (xs ++ old ++ ys))
    (hnodup : (head :: (xs ++ new ++ ys)).Nodup)
    (hmid : Segment l' (before head xs) new (after ys head))
    (hnext : ∀ c, c ≠ before head xs → c ∉ new → l'.next c = l.next c)
    (hprev : ∀ c, c ≠ after ys head → c ∉ new → l'.prev c = l.prev c) :
    IsRing l' head (xs ++ new ++ ys) := by
  obtain ⟨hfront, -, hback⟩ := isChain_parts.mp h.segment
  -- Both lists are without duplicates: the ring from its head on, and the ring up to its head.
  have hfrom : ((head :: xs).dropLast ++ before head xs :: (new ++ ys)).Nodup := by
    rw [append_cons, dropLast_append_before]
    simpa using hnodup
  have hupto : (xs ++ (new ++ after ys head :: (ys ++ [head]).tail)).Nodup := by
    have hrotated := nodup_append_comm.mp (show ([head] ++ (xs ++ new ++ ys)).Nodup from hnodup)
    simpa [after_cons_tail] using hrotated
  refine ⟨hnodup, isChain_parts.mpr ⟨isChain_congr hfront ?_ ?_, hmid, isChain_congr hback ?_ ?_⟩⟩
  · intro c hc
    have hdisj := (nodup_append.mp hfrom).2.2 c hc
    refine hnext c (hdisj _ mem_cons_self) fun hcnew => ?_
    exact hdisj c (mem_cons_of_mem _ (mem_append_left _ hcnew)) rfl
  · intro c hc
    have hdisj := (nodup_append.mp hupto).2.2 c hc
    refine hprev c (hdisj _ (by simp)) fun hcnew => ?_
    exact hdisj c (mem_append_left _ hcnew) rfl
  · intro c hc
    rw [dropLast_concat] at hc
    have hrest := (nodup_append.mp hfrom).2.1
    obtain ⟨hbefore, hrest⟩ := nodup_cons.mp hrest
    refine hnext c (fun hcb => hbefore ?_) fun hcnew => ?_
    · rw [← hcb]
      exact mem_append_right _ hc
    · exact (nodup_append.mp hrest).2.2 c hcnew c hc rfl
  · intro c hc
    have hrest := (nodup_append.mp (nodup_append.mp hupto).2.1)
    refine hprev c (fun hca => ?_) fun hcnew => ?_
    · exact (nodup_cons.mp hrest.2.1).1 (hca ▸ hc)
    · exact hrest.2.2 c hcnew c (mem_cons_of_mem _ hc) rfl

theorem IsRing.middle {mid ys : List A} (h : IsRing l head (xs ++ mid ++ ys)) :
    Segment l (before head xs) mid (after ys head) :=
  (isChain_parts.mp h.segment).2.1

theorem IsRing.prev_head (h : IsRing l head items) : l.prev head = before head items := by
  have hring : IsRing l head (items ++ [] ++ []) := by simpa using h
  exact hring.middle.2

theorem before_mem (head : A) (xs : List A) : before head xs ∈ head :: xs :=
  getLast_mem _

theorem after_mem (ys : List A) (head : A) : after ys head ∈ head :: ys := by
  cases ys with
  | nil => exact mem_cons_self
  | cons y ys => simp [after]

theorem IsRing.ends_ne {ys : List A} (h : IsRing l head (xs ++ [a] ++ ys)) :
    a ≠ before head xs ∧ a ≠ after ys head := by
  have ha : a ∉ head :: (xs ++ ys) := by
    have hnodup : (head :: xs ++ a :: ys).Nodup := by simpa using h.nodup
    exact (nodup_cons.mp (nodup_middle.mp hnodup)).1
  constructor
  · rintro rfl
    exact ha (mem_append_left ys (before_mem head xs))
  · rintro rfl
    apply ha
    have hafter := after_mem ys head
    simp only [mem_cons, mem_append] at hafter ⊢
    exact hafter.imp_right .inr

theorem IsRing.inverse (h : IsRing l head items) (ha : a ∈ head :: items) :
    l.prev (l.next a) = a ∧ l.next (l.prev a) = a := by
  rcases mem_cons.mp ha with rfl | ha
  · have hfirst : IsRing l a ([] ++ [] ++ items) := h
    obtain ⟨hnext, hback⟩ := hfirst.middle
    have hlast : IsRing l a (items ++ [] ++ []) := by simpa using h
    obtain ⟨hforth, hprev⟩ := hlast.middle
    rw [before_nil] at hnext hback
    rw [after_nil] at hforth hprev
    exact ⟨by rw [hnext, hback], by rw [hprev, hforth]⟩
  · obtain ⟨xs, ys, rfl⟩ := append_of_mem ha
    rw [append_cons] at h
    obtain ⟨⟨hforth, hprev⟩, hnext, hback⟩ := h.middle
    exact ⟨by rw [hnext, hback], by rw [hprev, hforth]⟩

section Build

variable [DecidableEq A] {item : A}

/-- The pointers with `item` between `p` and `s`. -/
def Links.put (l : Links A) (p item s : A) : Links A where
  next := update (update l.next item s) p item
  prev := update (update l.prev item p) s item

theorem put_next_of_ne {p s c : A} (hc : c ≠ item) (hp : c ≠ p) :
    (l.put p item s).next c = l.next c := by
  simp [Links.put, hc, hp]

theorem put_prev_of_ne {p s c : A} (hc : c ≠ item) (hs : c ≠ s) :
    (l.put p item s).prev c = l.prev c := by
  simp [Links.put, hc, hs]

/-- A new item takes the place of a part of the ring. -/
theorem IsRing.put {old ys : List A} (h : IsRing l head (xs ++ old ++ ys))
    (hitem : item ∉ head :: (xs ++ ys)) :
    IsRing (l.put (before head xs) item (after ys head)) head (xs ++ [item] ++ ys) := by
  have hbefore : item ≠ before head xs := by
    rintro rfl
    exact hitem (mem_append_left ys (before_mem head xs))
  have hafter : item ≠ after ys head := by
    rintro rfl
    rcases mem_cons.mp (after_mem ys head) with hhead | hys
    · exact hitem (mem_cons.mpr (.inl hhead))
    · exact hitem (mem_cons_of_mem head (mem_append_right xs hys))
  have hrest : (head :: (xs ++ ys)).Nodup := List.Nodup.sublist (by simp) h.nodup
  have hnodup : (head :: (xs ++ [item] ++ ys)).Nodup := by
    have hcons := nodup_cons.mpr ⟨hitem, hrest⟩
    rw [append_assoc]
    rw [← cons_append]
    exact nodup_middle.mpr hcons
  have hmid : Segment (l.put (before head xs) item (after ys head)) (before head xs) [item]
      (after ys head) := by
    simp [Segment, Links.put, hbefore, hafter]
  refine h.splice hnodup hmid ?_ ?_
  · intro c hc hnew
    exact put_next_of_ne (by simpa using hnew) hc
  · intro c hc hnew
    exact put_prev_of_ne (by simpa using hnew) hc

theorem addTail_eq_put (hitem : item ≠ head) :
    l.addTail item head = l.put (l.prev head) item head := by
  simp [Links.addTail, Links.put, update_of_ne hitem]

theorem IsRing.addTail (h : IsRing l head items) (hitem : item ∉ head :: items) :
    IsRing (l.addTail item head) head (items ++ [item]) := by
  have hring : IsRing l head (items ++ [] ++ []) := by simpa using h
  rw [addTail_eq_put (ne_of_not_mem_cons hitem), h.prev_head]
  simpa using hring.put (by simpa using hitem)

end Build

/-! ### Walking along -/

/-- Following `next` from `p` leads through the items and then to the head. -/
def Walk (l : Links A) (head : A) : A → List A → Prop
  | p, [] => p = head
  | p, x :: xs => p = x ∧ Walk l head (l.next x) xs

theorem Segment.walk (h : Segment l a xs b) : Walk l b (l.next a) xs := by
  induction xs generalizing a with
  | nil => exact h.1
  | cons x xs ih => exact ⟨h.1.1, ih h.2⟩

theorem IsRing.walk (h : IsRing l head items) : Walk l head (l.next head) items := h.segment.walk

theorem Walk.next {p x : A} (h : Walk l head p (x :: xs)) : Walk l head (l.next p) xs := by
  obtain ⟨rfl, h⟩ := h
  exact h

/-- Whoever compares with the head finds it behind the last item and not before. -/
theorem Walk.eq_head_iff {p : A} (h : Walk l head p xs) (hhead : head ∉ xs) :
    p = head ↔ xs = [] := by
  cases xs with
  | nil => exact iff_of_true h rfl
  | cons x xs =>
    refine iff_of_false (fun hc => ?_) (cons_ne_nil x xs)
    apply hhead
    rw [← hc, h.1]
    exact mem_cons_self

/-! ### Going round and round -/

variable {i : ℕ}

theorem IsRing.next_head (h : IsRing l head items) (hne : 0 < items.length) :
    l.next head = items[0] := by
  cases items with
  | nil => exact absurd hne (Nat.lt_irrefl _)
  | cons x xs => exact h.segment.1.1

/-- Item number `k`, counting on from the first when the last has been counted. -/
def cycle (items : List A) (hne : 0 < items.length) (k : ℕ) : A :=
  items.get ⟨k % items.length, Nat.mod_lt k hne⟩

variable {k : ℕ}

end Ring
