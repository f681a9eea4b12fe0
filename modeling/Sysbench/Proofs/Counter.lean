/-
Counter reports divide the work.

A report returns the difference between the total it read and the total read by the
report of its kind before it.  The reads are spread over time, but every slot only ever
grows, so when all is counted without wrapping around a later report has seen at least
as much as an earlier one: `CallInv` carries this through an aggregation, where part of
the slots has been read and part is still to come.  What a report returns is then a
difference of natural numbers, taken modulo 2^64, and the sum of the reports telescopes.
-/
import Sysbench.Lib.Schedule
import Sysbench.Lib.Wrapping
import Sysbench.Model.Counter

namespace Sysbench

open List Function

variable {threads : ℕ} {todo : List (SbCounterType × Fin threads)}

/-! ### What is still to be read -/

/-- What the loads in `todo` would add to the total of `t` if they were all made now. -/
def stillToRead (added : Fin threads → SbCounterType → ℕ) (t : SbCounterType) :
    List (SbCounterType × Fin threads) → ℕ
  | [] => 0
  | (t', i) :: todo => (if t' = t then added i t' else 0) + stillToRead added t todo

theorem stillToRead_append (added : Fin threads → SbCounterType → ℕ) (t : SbCounterType)
    (l l' : List (SbCounterType × Fin threads)) :
    stillToRead added t (l ++ l') = stillToRead added t l + stillToRead added t l' := by
  induction l with
  | nil => rw [nil_append, stillToRead, Nat.zero_add]
  | cons p l ih =>
    rw [cons_append, stillToRead, stillToRead, ih, Nat.add_assoc]

/-- The inner loop of `sb_counters_merge`. -/
theorem stillToRead_inner (added : Fin threads → SbCounterType → ℕ) (t t' : SbCounterType) :
    stillToRead added t ((finRange threads).map fun i => (t', i))
      = if t' = t then addedInAll added t else 0 := by
  have hsum : ∀ l : List (Fin threads), stillToRead added t (l.map fun i => (t', i))
      = if t' = t then (l.map fun i => added i t).sum else 0 := by
    intro l
    induction l with
    | nil => simp [stillToRead]
    | cons i l ih =>
      rw [map_cons, stillToRead, ih, map_cons, sum_cons]
      by_cases ht : t' = t
      · rw [if_pos ht, if_pos ht, if_pos ht, ht]
      · rw [if_neg ht, if_neg ht, if_neg ht]
  rw [hsum, addedInAll, Fin.sum_univ_def]

theorem stillToRead_mergeLoads (added : Fin threads → SbCounterType → ℕ) (t : SbCounterType) :
    stillToRead added t (mergeLoads threads) = addedInAll added t := by
  simp only [mergeLoads, SbCounterType.all, flatMap_cons, flatMap_nil,
    stillToRead_append, stillToRead_inner, stillToRead]
  cases t <;> simp

theorem nodup_mergeLoads : (mergeLoads threads).Nodup := by
  have htypes : SbCounterType.all.Nodup := by decide
  exact htypes.product (nodup_finRange threads)

/-! ### Adding to a counter -/

section Add

variable (added : Fin threads → SbCounterType → ℕ) (i : Fin threads) (t : SbCounterType) (v : ℕ)

/-- `v` more has been added to counter `t` of thread `i`. -/
def addTo : Fin threads → SbCounterType → ℕ :=
  update added i (update (added i) t (added i t + v))

theorem addTo_self : addTo added i t v i t = added i t + v := by
  rw [addTo, update_self, update_self]

theorem addTo_of_ne {j : Fin threads} {u : SbCounterType} (h : ¬(j = i ∧ u = t)) :
    addTo added i t v j u = added j u := by
  unfold addTo
  by_cases hj : j = i
  · subst hj
    rw [update_self, update_of_ne fun hu => h ⟨rfl, hu⟩]
  · rw [update_of_ne hj]

theorem addedInAll_addTo (u : SbCounterType) :
    addedInAll (addTo added i t v) u = addedInAll added u + if u = t then v else 0 := by
  by_cases hu : u = t
  · subst hu
    have hupd : (fun j => addTo added i u v j u)
        = update (fun j => added j u) i (added i u + v) := by
      funext j
      by_cases hj : j = i
      · subst hj
        rw [update_self, addTo_self]
      · rw [update_of_ne hj, addTo_of_ne _ _ _ _ fun h => hj h.1]
    have hsum := Wrapping.sum_update (fun j => added j u) i (added i u + v)
    rw [← hupd] at hsum
    beta_reduce at hsum
    rw [if_pos rfl]
    unfold addedInAll
    omega
  · rw [if_neg hu]
    exact Finset.sum_congr rfl fun j _ => addTo_of_ne _ _ _ _ fun h => hu h.2

theorem stillToRead_addTo_of_notMem (u : SbCounterType) (todo : List (SbCounterType × Fin threads))
    (h : (t, i) ∉ todo) : stillToRead (addTo added i t v) u todo = stillToRead added u todo := by
  induction todo with
  | nil => rfl
  | cons p todo ih =>
    have hp : ¬(p.2 = i ∧ p.1 = t) := by
      rintro ⟨rfl, rfl⟩
      exact h mem_cons_self
    rw [stillToRead, stillToRead, ih fun hc => h (mem_cons_of_mem _ hc),
      addTo_of_ne _ _ _ _ hp]

theorem stillToRead_addTo (u : SbCounterType)
    (hnodup : todo.Nodup) :
    stillToRead added u todo ≤ stillToRead (addTo added i t v) u todo ∧
    stillToRead (addTo added i t v) u todo
      ≤ stillToRead added u todo + if u = t then v else 0 := by
  induction todo with
  | nil => exact ⟨Nat.le_refl _, Nat.zero_le _⟩
  | cons p todo ih =>
    obtain ⟨hp, hrest⟩ := nodup_cons.mp hnodup
    obtain ⟨hlow, hhigh⟩ := ih hrest
    rw [stillToRead, stillToRead]
    by_cases hit : p.2 = i ∧ p.1 = t
    · obtain ⟨rfl, rfl⟩ := hit
      rw [stillToRead_addTo_of_notMem added p.2 p.1 v u todo hp, addTo_self]
      by_cases hu : p.1 = u
      · rw [if_pos hu, if_pos hu, if_pos hu.symm]
        omega
      · rw [if_neg hu, if_neg hu]
        omega
    · rw [addTo_of_ne _ _ _ _ hit]
      omega

end Add

/-! ### Reports as differences of reads -/

/-- What the newest of the reports had seen of `t`. -/
def lastSeen (t : SbCounterType) : List AggReport → ℕ
  | [] => 0
  | r :: _ => r.seen t

/-- Each report has seen at least what the one before it had, and returns the difference. -/
def DifferencesOfReads (t : SbCounterType) : List AggReport → Prop
  | [] => True
  | r :: older =>
    lastSeen t older ≤ r.seen t ∧ r.read t = UInt64.ofNat (r.seen t) ∧
    r.val t = UInt64.ofNat (r.seen t - lastSeen t older) ∧ DifferencesOfReads t older

/-- The differences add up to the last read. -/
theorem sum_val_eq_lastSeen {t : SbCounterType} {reports : List AggReport}
    (h : DifferencesOfReads t reports) :
    (reports.map (·.val t)).sum = UInt64.ofNat (lastSeen t reports) := by
  induction reports with
  | nil => rfl
  | cons r older ih =>
    obtain ⟨hle, -, hval, hrest⟩ := h
    rw [map_cons, sum_cons, ih hrest, hval, ← UInt64.ofNat_add,
      Nat.sub_add_cancel hle]
    rfl

/-- The reports of kind `k` are behind what has been added, and `last` is what the newest read. -/
structure ReportsInv (s : CounterState threads) (k : AggKind) (t : SbCounterType) : Prop where
  differences : DifferencesOfReads t (reportsOf k s)
  last : s.last k t = UInt64.ofNat (lastSeen t (reportsOf k s))
  behind : lastSeen t (reportsOf k s) ≤ addedInAll s.added t

/-- An aggregation in progress: what it has read and what it is still to read are together
between what the reports before it saw and what there is. -/
structure CallInv (s : CounterState threads) (c : AggCall threads) : Prop where
  nodup : c.todo.Nodup
  dst : ∀ t, c.dst t = UInt64.ofNat (c.seen t)
  ahead : ∀ k t, lastSeen t (reportsOf k s) ≤ c.seen t + stillToRead s.added t c.todo
  start : ∀ t, c.start t ≤ c.seen t + stillToRead s.added t c.todo
  behind : ∀ t, c.seen t + stillToRead s.added t c.todo ≤ addedInAll s.added t

structure CounterInv (s : CounterState threads) : Prop where
  slots : ∀ i t, s.slots i t = UInt64.ofNat (s.added i t)
  reports : ∀ k t, ReportsInv s k t
  between : ∀ r ∈ s.reports, ∀ t, r.start t ≤ r.seen t ∧ r.seen t ≤ r.stop t
  call : ∀ c, s.call = some c → CallInv s c

theorem counterInv_init : CounterInv (counterInit threads) where
  slots := fun _ _ => rfl
  reports := fun _ _ => ⟨trivial, rfl, Nat.zero_le _⟩
  between := nofun
  call := nofun

variable {s : CounterState threads}

theorem CounterInv.add (h : CounterInv s) (i : Fin threads) (t : SbCounterType) (val : UInt64) :
    CounterInv (sbCounterAdd s i t val) where
  slots := by
    intro j u
    show update s.slots i _ j u = UInt64.ofNat (addTo s.added i t val.toNat j u)
    by_cases hit : j = i ∧ u = t
    · obtain ⟨rfl, rfl⟩ := hit
      rw [update_self, update_self, addTo_self, h.slots, UInt64.ofNat_add,
        UInt64.ofNat_toNat]
    · rw [addTo_of_ne _ _ _ _ hit, ← h.slots]
      by_cases hj : j = i
      · subst hj
        rw [update_self, update_of_ne fun hu => hit ⟨rfl, hu⟩]
      · rw [update_of_ne hj]
  reports := by
    intro k u
    obtain ⟨hdiff, hlast, hbehind⟩ := h.reports k u
    refine ⟨hdiff, hlast, Nat.le_trans hbehind ?_⟩
    show addedInAll s.added u ≤ addedInAll (addTo s.added i t val.toNat) u
    rw [addedInAll_addTo]
    exact Nat.le_add_right _ _
  between := h.between
  call := by
    intro c hc
    obtain ⟨hnodup, hdst, hahead, hstart, hbehind⟩ := h.call c hc
    have hlow (u : SbCounterType) := Nat.add_le_add_left
      (stillToRead_addTo s.added i t val.toNat u hnodup).1 (c.seen u)
    refine ⟨hnodup, hdst, ?_, ?_, ?_⟩
    · exact fun k u => (hahead k u).trans (hlow u)
    · exact fun u => (hstart u).trans (hlow u)
    · intro u
      have hhigh := (stillToRead_addTo s.added i t val.toNat u hnodup).2
      have hb := hbehind u
      show c.seen u + stillToRead (addTo s.added i t val.toNat) u c.todo
        ≤ addedInAll (addTo s.added i t val.toNat) u
      rw [addedInAll_addTo]
      omega

variable {c : AggCall threads}

/-- A step that only changes the aggregation in progress. -/
theorem CounterInv.setCall (h : CounterInv s) (hc : CallInv s c) :
    CounterInv { s with call := some c } where
  slots := h.slots
  reports := fun k t => ⟨(h.reports k t).differences, (h.reports k t).last,
    (h.reports k t).behind⟩
  between := h.between
  call := by
    intro c' hc'
    cases hc'
    exact ⟨hc.nodup, hc.dst, hc.ahead, hc.start, hc.behind⟩

theorem callInv_start (h : CounterInv s) (kind : AggKind) : CallInv s (.new s kind) := by
  have hall (t : SbCounterType) :
      0 + stillToRead s.added t (mergeLoads threads) = addedInAll s.added t := by
    rw [stillToRead_mergeLoads, Nat.zero_add]
  refine ⟨nodup_mergeLoads, fun _ => rfl, fun k t => ?_, fun t => ?_, fun t => ?_⟩
  · exact (h.reports k t).behind.trans (hall t).ge
  · exact (hall t).ge
  · exact (hall t).le

theorem seen_load (s : CounterState threads) (c : AggCall threads) (t : SbCounterType)
    (i : Fin threads) (todo : List (SbCounterType × Fin threads)) (u : SbCounterType) :
    (c.load s t i todo).seen u + stillToRead s.added u todo
      = c.seen u + stillToRead s.added u ((t, i) :: todo) := by
  show update c.seen t _ u + _ = _
  rw [stillToRead]
  by_cases hu : t = u
  · subst hu
    rw [update_self, if_pos rfl, Nat.add_assoc]
  · rw [update_of_ne (Ne.symm hu), if_neg hu, Nat.zero_add]

theorem CallInv.load (h : CounterInv s) (hc : CallInv s c) {t : SbCounterType} {i : Fin threads}
    (htodo : c.todo = (t, i) :: todo) :
    CallInv s (c.load s t i todo) where
  nodup := by
    have hnodup := hc.nodup
    rw [htodo] at hnodup
    exact (nodup_cons.mp hnodup).2
  dst := by
    intro u
    show update c.dst t _ u = UInt64.ofNat (update c.seen t _ u)
    by_cases hu : u = t
    · subst hu
      rw [update_self, update_self, hc.dst, h.slots, UInt64.ofNat_add]
    · rw [update_of_ne hu, update_of_ne hu, hc.dst]
  ahead := by
    intro k u
    show _ ≤ (c.load s t i todo).seen u + stillToRead s.added u todo
    rw [seen_load, ← htodo]
    exact hc.ahead k u
  start := by
    intro u
    show _ ≤ (c.load s t i todo).seen u + stillToRead s.added u todo
    rw [seen_load, ← htodo]
    exact hc.start u
  behind := by
    intro u
    show (c.load s t i todo).seen u + stillToRead s.added u todo ≤ _
    rw [seen_load, ← htodo]
    exact hc.behind u

/-- The report that an aggregation ends with. -/
def AggCall.report (c : AggCall threads) (s : CounterState threads) : AggReport :=
  ⟨c.kind, (sbCountersCheckpoint c.dst (s.last c.kind)).1, c.dst, c.seen, c.start,
    addedInAll s.added⟩

/-- `s` after the return of the aggregation `c`. -/
def AggCall.finish (c : AggCall threads) (s : CounterState threads) : CounterState threads :=
  { s with
    call := none
    last := update s.last c.kind (sbCountersCheckpoint c.dst (s.last c.kind)).2
    reports := c.report s :: s.reports }

theorem reportsOf_finish_self (c : AggCall threads) (s : CounterState threads) :
    reportsOf c.kind (c.finish s) = c.report s :: reportsOf c.kind s :=
  filter_cons_of_pos (decide_eq_true rfl)

theorem reportsOf_finish_of_ne {k : AggKind} (h : k ≠ c.kind) (s : CounterState threads) :
    reportsOf k (c.finish s) = reportsOf k s :=
  filter_cons_of_neg fun hc => h (of_decide_eq_true hc).symm

theorem CounterInv.finish (h : CounterInv s) (hc : CallInv s c) (htodo : c.todo = []) :
    CounterInv (c.finish s) where
  slots := h.slots
  reports := by
    intro k t
    by_cases hk : k = c.kind
    · subst hk
      have hahead := hc.ahead c.kind t
      have hbehind := hc.behind t
      rw [htodo, stillToRead, Nat.add_zero] at hahead hbehind
      refine ⟨?_, ?_, ?_⟩
      · rw [reportsOf_finish_self]
        refine ⟨hahead, hc.dst t, ?_, (h.reports c.kind t).differences⟩
        show c.dst t - s.last c.kind t = _
        rw [hc.dst, (h.reports c.kind t).last, ← UInt64.ofNat_sub hahead]
        rfl
      · rw [reportsOf_finish_self]
        show update s.last c.kind c.dst c.kind t = UInt64.ofNat (c.seen t)
        rw [update_self, hc.dst]
      · rw [reportsOf_finish_self]
        exact hbehind
    · obtain ⟨hdiff, hlast, hbehind⟩ := h.reports k t
      rw [← reportsOf_finish_of_ne hk s] at hdiff hlast hbehind
      refine ⟨hdiff, ?_, hbehind⟩
      show update s.last c.kind _ k t = _
      rw [update_of_ne hk]
      exact hlast
  between := by
    refine forall_mem_cons.mpr ⟨fun t => ?_, h.between⟩
    have hstart := hc.start t
    have hbehind := hc.behind t
    rw [htodo] at hstart hbehind
    exact ⟨hstart, hbehind⟩
  call := nofun

/-! ### Runs -/

theorem counterStep_cases (s : CounterState threads) (e : CounterEvent threads) :
    counterStep s e = s ∨
    (∃ i t val, e = .add i t val ∧ counterStep s e = sbCounterAdd s i t val) ∨
    (∃ kind, e = .call kind ∧ s.call = none ∧
      counterStep s e = { s with call := some (.new s kind) }) ∨
    (∃ c t i todo, e = .load ∧ s.call = some c ∧ c.todo = (t, i) :: todo ∧
      counterStep s e = { s with call := some (c.load s t i todo) }) ∨
    (∃ c, e = .finish ∧ s.call = some c ∧ c.todo = [] ∧ counterStep s e = c.finish s) := by
  cases e with
  | add i t val => exact .inr (.inl ⟨i, t, val, rfl, rfl⟩)
  | call kind =>
    cases hcall : s.call with
    | none =>
      refine .inr (.inr (.inl ⟨kind, rfl, rfl, ?_⟩))
      simp only [counterStep, hcall]
    | some c =>
      refine .inl ?_
      simp only [counterStep, hcall]
  | load =>
    cases hcall : s.call with
    | none =>
      refine .inl ?_
      simp only [counterStep, hcall]
    | some c =>
      cases htodo : c.todo with
      | nil =>
        refine .inl ?_
        simp only [counterStep, hcall, htodo]
      | cons p todo =>
        refine .inr (.inr (.inr (.inl ⟨c, p.1, p.2, todo, rfl, rfl, htodo, ?_⟩)))
        simp only [counterStep, hcall, htodo]
  | finish =>
    cases hcall : s.call with
    | none =>
      refine .inl ?_
      simp only [counterStep, hcall]
    | some c =>
      cases htodo : c.todo with
      | nil =>
        refine .inr (.inr (.inr (.inr ⟨c, rfl, rfl, htodo, ?_⟩)))
        simp only [counterStep, hcall, htodo]
        rfl
      | cons p todo =>
        refine .inl ?_
        simp only [counterStep, hcall, htodo]

theorem CounterInv.step (h : CounterInv s) (e : CounterEvent threads) :
    CounterInv (counterStep s e) := by
  obtain hs | ⟨i, t, val, -, hs⟩ | ⟨kind, -, -, hs⟩ | ⟨c, t, i, todo, -, hcall, htodo, hs⟩ |
    ⟨c, -, hcall, htodo, hs⟩ := counterStep_cases s e
  all_goals rw [hs]
  · exact h
  · exact h.add i t val
  · exact h.setCall (callInv_start h kind)
  · exact h.setCall ((h.call c hcall).load h htodo)
  · exact h.finish (h.call c hcall) htodo

theorem counterInv_run (events : List (CounterEvent threads)) :
    CounterInv (counterRun threads events) :=
  Schedule.invariant (fun _ e hs => hs.step e) counterInv_init events

/-! ### Cumulative reports do not see intermediate ones -/

/-- `s'` is `s` as far as cumulative aggregations are concerned. -/
structure SameCumulative (s s' : CounterState threads) : Prop where
  slots : s'.slots = s.slots
  added : s'.added = s.added
  last : s'.last .cumulative = s.last .cumulative
  reports : reportsOf .cumulative s' = reportsOf .cumulative s
  call : s'.call = s.call.filter (·.kind = .cumulative)

theorem kind_of_ne_intermediate {k : AggKind} (h : k ≠ .intermediate) : k = .cumulative := by
  cases k with
  | intermediate => exact absurd rfl h
  | cumulative => rfl

section Erase

variable {s s' : CounterState threads}

theorem SameCumulative.call_none (h : SameCumulative s s') (hcall : s.call = none) :
    s'.call = none := by
  rw [h.call, hcall]
  rfl

variable {c : AggCall threads}

theorem SameCumulative.call_intermediate (h : SameCumulative s s') (hcall : s.call = some c)
    (hc : c.kind = .intermediate) : s'.call = none := by
  rw [h.call, hcall, Option.filter_some, hc]
  rfl

theorem SameCumulative.call_cumulative (h : SameCumulative s s') (hcall : s.call = some c)
    (hc : c.kind = .cumulative) : s'.call = some c := by
  rw [h.call, hcall, Option.filter_some, hc]
  rfl

theorem SameCumulative.setIntermediate (h : SameCumulative s s') (hcall : s'.call = none)
    (hc : c.kind = .intermediate) :
    SameCumulative { s with call := some c } s' := by
  refine { h with call := ?_ }
  rw [hcall, Option.filter_some, hc]
  rfl

theorem SameCumulative.setCumulative (h : SameCumulative s s') (hc : c.kind = .cumulative) :
    SameCumulative { s with call := some c } { s' with call := some c } := by
  refine { h with call := ?_ }
  rw [Option.filter_some, hc]
  rfl

theorem SameCumulative.load (h : SameCumulative s s') (hc : c.kind = .cumulative)
    (t : SbCounterType) (i : Fin threads) (todo : List (SbCounterType × Fin threads)) :
    SameCumulative { s with call := some (c.load s t i todo) }
      { s' with call := some (c.load s' t i todo) } := by
  have hload : c.load s' t i todo = c.load s t i todo := by
    unfold AggCall.load
    rw [h.slots, h.added]
  rw [hload]
  exact h.setCumulative hc

theorem SameCumulative.add (h : SameCumulative s s') (i : Fin threads) (t : SbCounterType)
    (val : UInt64) : SameCumulative (sbCounterAdd s i t val) (sbCounterAdd s' i t val) := by
  refine { h with slots := ?_, added := ?_ }
  · rw [sbCounterAdd, sbCounterAdd, h.slots]
  · rw [sbCounterAdd, sbCounterAdd, h.added]

theorem SameCumulative.finish_intermediate (h : SameCumulative s s') (hcall : s'.call = none)
    (hc : c.kind = .intermediate) : SameCumulative (c.finish s) s' := by
  refine { h with last := ?_, reports := ?_, call := hcall }
  · show _ = update s.last c.kind _ .cumulative
    rw [hc]
    exact h.last
  · rw [reportsOf_finish_of_ne (by rw [hc]; decide)]
    exact h.reports

theorem SameCumulative.finish_cumulative (h : SameCumulative s s') (hc : c.kind = .cumulative) :
    SameCumulative (c.finish s) (c.finish s') := by
  refine { h with last := ?_, reports := ?_, call := rfl }
  · show update s'.last c.kind _ .cumulative = update s.last c.kind _ .cumulative
    rw [hc]
    rfl
  · have hreport : c.report s' = c.report s := by
      unfold AggCall.report
      rw [hc, h.last, h.added]
    have hs := reportsOf_finish_self c s
    have hs' := reportsOf_finish_self c s'
    rw [hc] at hs hs'
    rw [hs, hs', hreport, h.reports]

theorem SameCumulative.step_erased (h : SameCumulative s s') {e : CounterEvent threads}
    (he : ofIntermediate s e = true) : SameCumulative (counterStep s e) s' := by
  obtain hs | ⟨i, t, val, rfl, hs⟩ | ⟨kind, rfl, hcall, hs⟩ |
    ⟨c, t, i, todo, rfl, hcall, htodo, hs⟩ | ⟨c, rfl, hcall, htodo, hs⟩ := counterStep_cases s e
  all_goals rw [hs]
  · exact h
  · cases he
  · simp only [ofIntermediate, inIntermediate, hcall, Bool.or_false, decide_eq_true_eq] at he
    exact h.setIntermediate (h.call_none hcall) he
  · simp only [ofIntermediate, inIntermediate, hcall, decide_eq_true_eq] at he
    exact h.setIntermediate (h.call_intermediate hcall he) he
  · simp only [ofIntermediate, inIntermediate, hcall, decide_eq_true_eq] at he
    exact h.finish_intermediate (h.call_intermediate hcall he) he

theorem SameCumulative.step_kept (h : SameCumulative s s') {e : CounterEvent threads}
    (he : ofIntermediate s e = false) :
    SameCumulative (counterStep s e) (counterStep s' e) := by
  cases e with
  | add i t val => exact h.add i t val
  | call kind =>
    cases hcall : s.call with
    | none =>
      simp only [ofIntermediate, inIntermediate, hcall, Bool.or_false,
        decide_eq_false_iff_not] at he
      have hnew : AggCall.new s' kind = .new s kind := by rw [AggCall.new, h.added, ← AggCall.new]
      simp only [counterStep, hcall, h.call_none hcall, hnew]
      exact h.setCumulative (kind_of_ne_intermediate he)
    | some c =>
      simp only [ofIntermediate, inIntermediate, hcall, Bool.or_eq_false_iff,
        decide_eq_false_iff_not] at he
      simp only [counterStep, hcall, h.call_cumulative hcall (kind_of_ne_intermediate he.2)]
      exact h
  | load | finish =>
    cases hcall : s.call with
    | none =>
      simp only [counterStep, hcall, h.call_none hcall]
      exact h
    | some c =>
      simp only [ofIntermediate, inIntermediate, hcall, decide_eq_false_iff_not] at he
      have hc := kind_of_ne_intermediate he
      simp only [counterStep, hcall, h.call_cumulative hcall hc]
      cases htodo : c.todo with
      | nil => first | exact h | exact h.finish_cumulative hc
      | cons p todo => first | exact h | exact h.load hc p.1 p.2 todo

/-- A run and the run without its intermediate aggregations stay the same to cumulative ones. -/
theorem SameCumulative.run (h : SameCumulative s s') (events : List (CounterEvent threads)) :
    SameCumulative (events.foldl counterStep s)
      ((eraseIntermediate s events).foldl counterStep s') := by
  induction events generalizing s s' with
  | nil => exact h
  | cons e events ih =>
    rw [eraseIntermediate]
    by_cases he : ofIntermediate s e = true
    · rw [if_pos he]
      exact ih (h.step_erased he)
    · rw [if_neg he]
      exact ih (h.step_kept (Bool.eq_false_iff.mpr he))

end Erase

/-- What is left of a run: no intermediate aggregation, but every increment, in the old order. -/
theorem eraseIntermediate_spec (s : CounterState threads) (events : List (CounterEvent threads)) :
    CounterEvent.call .intermediate ∉ eraseIntermediate s events ∧
    (eraseIntermediate s events).Sublist events ∧
    (eraseIntermediate s events).filter CounterEvent.isAdd
      = events.filter CounterEvent.isAdd := by
  induction events generalizing s with
  | nil => exact ⟨not_mem_nil, List.Sublist.refl _, rfl⟩
  | cons e events ih =>
    obtain ⟨hcall, hsub, hadds⟩ := ih (counterStep s e)
    rw [eraseIntermediate]
    by_cases he : ofIntermediate s e = true
    · rw [if_pos he]
      have hadd : ¬e.isAdd = true := by
        cases e with
        | add i t val => cases he
        | _ => exact nofun
      refine ⟨hcall, hsub.cons e, ?_⟩
      rw [hadds, filter_cons_of_neg hadd]
    · rw [if_neg he]
      refine ⟨?_, hsub.cons_cons e, ?_⟩
      · intro hmem
        rcases mem_cons.mp hmem with rfl | hmem
        · exact he rfl
        · exact hcall hmem
      · rw [filter_cons, filter_cons, hadds]

/-- **Counter reports divide the work.**  In every interleaving of increments and loads, the
reports of either kind add up to what the last of them read; each returns the difference, which
is never negative, between what it and the report before it had seen; what it has seen is
between what there was when it began and when it returned; and the cumulative reports are those of
the same run with all steps of intermediate aggregations left out. -/
theorem counter_reports_divide_work (events : List (CounterEvent threads)) :
    (∀ k t, ((reportsOf k (counterRun threads events)).map (·.val t)).sum
      = ((reportsOf k (counterRun threads events)).head?.map (·.read t)).getD 0) ∧
    (∀ k t, DifferencesOfReads t (reportsOf k (counterRun threads events))) ∧
    (∀ r ∈ (counterRun threads events).reports, ∀ t, r.start t ≤ r.seen t ∧ r.seen t ≤ r.stop t) ∧
    CounterEvent.call .intermediate ∉ eraseIntermediate (counterInit threads) events ∧
    (eraseIntermediate (counterInit threads) events).Sublist events ∧
    (eraseIntermediate (counterInit threads) events).filter CounterEvent.isAdd
      = events.filter CounterEvent.isAdd ∧
    reportsOf .cumulative (counterRun threads events)
      = reportsOf .cumulative
          (counterRun threads (eraseIntermediate (counterInit threads) events)) := by
  have hinv := counterInv_run events
  refine ⟨?_, fun k t => (hinv.reports k t).differences, hinv.between, ?_⟩
  · intro k t
    have hdiff := (hinv.reports k t).differences
    rw [sum_val_eq_lastSeen hdiff]
    cases hreports : reportsOf k (counterRun threads events) with
    | nil => rfl
    | cons r older =>
      rw [hreports] at hdiff
      exact hdiff.2.1.symm
  · obtain ⟨hcall, hsub, hadds⟩ := eraseIntermediate_spec (counterInit threads) events
    have hinit : SameCumulative (counterInit threads) (counterInit threads) :=
      ⟨rfl, rfl, rfl, rfl, rfl⟩
    exact ⟨hcall, hsub, hadds, (hinit.run events).reports.symm⟩

end Sysbench
