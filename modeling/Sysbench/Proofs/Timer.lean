/-
What a timer knows about the events it has seen.

`Summarises t vals` says that the statistics of timer `t` are those of the values
`vals`: their number and their sum with multiples of 2^64 dropped, and bounds that are
attained, with the neutral values of a fresh timer where there is nothing to attain.  A
stop adds a value, a merge appends, and a permutation of the values changes nothing.

Every theorem about threads then follows from one invariant of the run: the timer of a
thread summarises what the thread recorded since the last copy, and each copy what was
recorded before it.
-/
import Mathlib.Algebra.BigOperators.Group.List.Basic
import Sysbench.Lib.Schedule
import Sysbench.Model.Timer

namespace Sysbench

open List

/-- The statistics of `t` are those of `vals`. -/
structure Summarises (t : SbTimer) (vals : List UInt64) : Prop where
  events : t.events = UInt64.ofNat vals.length
  sum : t.sumTime = vals.sum
  min_le : ∀ v ∈ vals, t.minTime ≤ v
  min_attained : t.minTime = uint64Max ∨ t.minTime ∈ vals
  le_max : ∀ v ∈ vals, v ≤ t.maxTime
  max_attained : t.maxTime = 0 ∨ t.maxTime ∈ vals

theorem le_uint64Max (v : UInt64) : v ≤ uint64Max := by
  rw [UInt64.le_iff_toNat_le]
  have hv := v.toNat_lt
  have hmax : uint64Max.toNat = 18446744073709551615 := rfl
  omega

/-- The smaller of two bounds, as the timers compute it. -/
theorem ite_lt_le (a b : UInt64) :
    (if a < b then a else b) ≤ a ∧ (if a < b then a else b) ≤ b := by
  simp only [UInt64.le_iff_toNat_le, UInt64.lt_iff_toNat_lt]
  split <;> omega

theorem le_ite_gt (a b : UInt64) :
    a ≤ (if a > b then a else b) ∧ b ≤ (if a > b then a else b) := by
  simp only [UInt64.le_iff_toNat_le, GT.gt, UInt64.lt_iff_toNat_lt]
  split <;> omega

/-! ### One timer -/

theorem summarises_reset (t : SbTimer) : Summarises (sbTimerReset t) [] where
  events := rfl
  sum := rfl
  min_le := nofun
  min_attained := .inl rfl
  le_max := nofun
  max_attained := .inl rfl

theorem summarises_init : Summarises sbTimerInit [] := summarises_reset _

variable {t : SbTimer} {vals : List UInt64}

/-- Only the statistics matter. -/
theorem Summarises.congr {t' : SbTimer} (h : Summarises t vals) (hevents : t'.events = t.events)
    (hsum : t'.sumTime = t.sumTime) (hmin : t'.minTime = t.minTime)
    (hmax : t'.maxTime = t.maxTime) : Summarises t' vals where
  events := hevents ▸ h.events
  sum := hsum ▸ h.sum
  min_le := hmin ▸ h.min_le
  min_attained := hmin ▸ h.min_attained
  le_max := hmax ▸ h.le_max
  max_attained := hmax ▸ h.max_attained

theorem Summarises.perm {vals' : List UInt64} (h : Summarises t vals) (hperm : vals.Perm vals') :
    Summarises t vals' where
  events := hperm.length_eq ▸ h.events
  sum := hperm.sum_eq ▸ h.sum
  min_le := fun v hv => h.min_le v (hperm.mem_iff.mpr hv)
  min_attained := h.min_attained.imp_right hperm.mem_iff.mp
  le_max := fun v hv => h.le_max v (hperm.mem_iff.mpr hv)
  max_attained := h.max_attained.imp_right hperm.mem_iff.mp

theorem Summarises.stop (h : Summarises t vals) (now : Timespec) :
    Summarises (sbTimerStop t now).2 ((sbTimerStop t now).1 :: vals) := by
  obtain ⟨hmin, hmin'⟩ := ite_lt_le (sbTimerElapsed t now) t.minTime
  obtain ⟨hmax, hmax'⟩ := le_ite_gt (sbTimerElapsed t now) t.maxTime
  refine ⟨?_, ?_, ?_, ?_, ?_, ?_⟩
  · show t.events + 1 = UInt64.ofNat (vals.length + 1)
    rw [h.events, UInt64.ofNat_add]
    rfl
  · show t.sumTime + sbTimerElapsed t now = _
    rw [sum_cons, h.sum, UInt64.add_comm]
    rfl
  · intro v hv
    rcases mem_cons.mp hv with rfl | hv
    · exact hmin
    · exact UInt64.le_trans hmin' (h.min_le v hv)
  · show (if sbTimerElapsed t now < t.minTime then sbTimerElapsed t now else t.minTime) = _ ∨ _
    by_cases hlt : sbTimerElapsed t now < t.minTime
    · exact .inr (mem_cons.mpr (.inl (if_pos hlt)))
    · rw [if_neg hlt]
      refine h.min_attained.imp_right fun hmem => mem_cons.mpr (.inr ?_)
      rwa [show (sbTimerStop t now).2.minTime = t.minTime from if_neg hlt]
  · intro v hv
    rcases mem_cons.mp hv with rfl | hv
    · exact hmax
    · exact UInt64.le_trans (h.le_max v hv) hmax'
  · show (if sbTimerElapsed t now > t.maxTime then sbTimerElapsed t now else t.maxTime) = _ ∨ _
    by_cases hgt : sbTimerElapsed t now > t.maxTime
    · exact .inr (mem_cons.mpr (.inl (if_pos hgt)))
    · rw [if_neg hgt]
      refine h.max_attained.imp_right fun hmem => mem_cons.mpr (.inr ?_)
      rwa [show (sbTimerStop t now).2.maxTime = t.maxTime from if_neg hgt]

theorem Summarises.merge {t₁ t₂ : SbTimer} {vals₁ vals₂ : List UInt64}
    (h₁ : Summarises t₁ vals₁) (h₂ : Summarises t₂ vals₂) :
    Summarises (sbTimerMerge t₁ t₂) (vals₁ ++ vals₂) := by
  obtain ⟨hmin₁, hmin₂⟩ := ite_lt_le t₁.minTime t₂.minTime
  obtain ⟨hmax₁, hmax₂⟩ := le_ite_gt t₁.maxTime t₂.maxTime
  refine ⟨?_, ?_, ?_, ?_, ?_, ?_⟩
  · show t₁.events + t₂.events = _
    rw [h₁.events, h₂.events, length_append, UInt64.ofNat_add]
  · show t₁.sumTime + t₂.sumTime = _
    rw [h₁.sum, h₂.sum, sum_append]
  · intro v hv
    rcases mem_append.mp hv with hv | hv
    · exact UInt64.le_trans hmin₁ (h₁.min_le v hv)
    · exact UInt64.le_trans hmin₂ (h₂.min_le v hv)
  · show (if t₁.minTime < t₂.minTime then t₁.minTime else t₂.minTime) = _ ∨
      (if t₁.minTime < t₂.minTime then t₁.minTime else t₂.minTime) ∈ _
    split
    · exact h₁.min_attained.imp_right (mem_append_left _)
    · exact h₂.min_attained.imp_right (mem_append_right _)
  · intro v hv
    rcases mem_append.mp hv with hv | hv
    · exact UInt64.le_trans (h₁.le_max v hv) hmax₁
    · exact UInt64.le_trans (h₂.le_max v hv) hmax₂
  · show (if t₁.maxTime > t₂.maxTime then t₁.maxTime else t₂.maxTime) = _ ∨
      (if t₁.maxTime > t₂.maxTime then t₁.maxTime else t₂.maxTime) ∈ _
    split
    · exact h₁.max_attained.imp_right (mem_append_left _)
    · exact h₂.max_attained.imp_right (mem_append_right _)

theorem summarises_mergeTimers {ι : Type} (timers : ι → SbTimer) (vals : ι → List UInt64)
    (h : ∀ i, Summarises (timers i) (vals i)) (order : List ι) :
    Summarises (mergeTimers (order.map timers)) (order.flatMap vals) := by
  have hfold : ∀ (start : SbTimer) (seen : List UInt64), Summarises start seen →
      Summarises ((order.map timers).foldl sbTimerMerge start) (seen ++ order.flatMap vals) := by
    induction order with
    | nil =>
      intro start seen hstart
      rw [flatMap_nil, append_nil]
      exact hstart
    | cons i order ih =>
      intro start seen hstart
      rw [flatMap_cons, ← append_assoc]
      exact ih _ _ (hstart.merge (h i))
  exact hfold sbTimerInit [] summarises_init

/-! ### Runs -/

section Runs

variable {T : Type} [DecidableEq T]

/-- Each timer summarises what its thread recorded since the last copy, and each copy what was
recorded between the copy before it and itself. -/
structure TimerInv (s : TimerState T) : Prop where
  live : ∀ t, Summarises (s.timers t) (liveValues t s.log)
  copies : ∀ t, List.Forall₂ Summarises (copiesOf t s.log) (copiedValues t s.log)

theorem timerInv_init : TimerInv (timerInit T) where
  live := fun _ => summarises_init
  copies := fun _ => List.Forall₂.nil

variable {s : TimerState T}

theorem TimerInv.update (h : TimerInv s) (t : T) (timer : SbTimer)
    (hevents : timer.events = (s.timers t).events) (hsum : timer.sumTime = (s.timers t).sumTime)
    (hmin : timer.minTime = (s.timers t).minTime) (hmax : timer.maxTime = (s.timers t).maxTime) :
    TimerInv { s with timers := Function.update s.timers t timer } where
  live := by
    intro u
    show Summarises (Function.update s.timers t timer u) (liveValues u s.log)
    by_cases hu : u = t
    · subst hu
      rw [Function.update_self]
      exact (h.live u).congr hevents hsum hmin hmax
    · rw [Function.update_of_ne hu]
      exact h.live u
  copies := h.copies

theorem TimerInv.stop (h : TimerInv s) (t : T) (now : Timespec) :
    TimerInv (timerStep s (.stop t now)) where
  live := by
    intro u
    show Summarises (Function.update s.timers t (sbTimerStop (s.timers t) now).2 u)
      (if t = u then _ else _)
    by_cases hu : t = u
    · subst hu
      rw [Function.update_self, if_pos rfl]
      exact (h.live t).stop now
    · rw [Function.update_of_ne (Ne.symm hu), if_neg hu]
      exact h.live u
  copies := h.copies

theorem TimerInv.checkpoint (h : TimerInv s) (t : T) :
    TimerInv (timerStep s (.checkpoint t)) where
  live := by
    intro u
    show Summarises (Function.update s.timers t (sbTimerReset (s.timers t)) u)
      (if t = u then _ else _)
    by_cases hu : t = u
    · subst hu
      rw [Function.update_self, if_pos rfl]
      exact summarises_reset _
    · rw [Function.update_of_ne (Ne.symm hu), if_neg hu]
      exact h.live u
  copies := by
    intro u
    show List.Forall₂ Summarises (if t = u then _ else _) (if t = u then _ else _)
    by_cases hu : t = u
    · subst hu
      rw [if_pos rfl, if_pos rfl]
      exact List.Forall₂.cons (h.live t) (h.copies t)
    · rw [if_neg hu, if_neg hu]
      exact h.copies u

theorem TimerInv.step (h : TimerInv s) (op : TimerOp T) : TimerInv (timerStep s op) := by
  cases op with
  | start t now | queue t ns => exact h.update t _ rfl rfl rfl rfl
  | stop t now => exact h.stop t now
  | checkpoint t => exact h.checkpoint t

theorem timerInv_run (ops : List (TimerOp T)) : TimerInv (timerRun ops) :=
  Schedule.invariant (fun _ op hs => hs.step op) timerInv_init ops

/-! ### The record -/

/-- Every recorded value is in exactly one place: the live timer, or one of the copies. -/
theorem live_append_copied (t : T) (log : List (TimerEntry T)) :
    liveValues t log ++ (copiedValues t log).flatten = recordedBy t log := by
  induction log with
  | nil => rfl
  | cons entry log ih =>
    cases entry with
    | recorded t' e =>
      unfold liveValues copiedValues recordedBy
      by_cases ht : t' = t
      · rw [if_pos ht, if_pos ht, cons_append, ih]
      · rw [if_neg ht, if_neg ht, ih]
    | copied t' old =>
      unfold liveValues copiedValues recordedBy
      by_cases ht : t' = t
      · rw [if_pos ht, if_pos ht, flatten_cons, nil_append, ih]
      · rw [if_neg ht, if_neg ht, ih]

variable {order : List T}

/-- A value added to one thread's list is added once to all of them. -/
theorem flatMap_cons_at (hnodup : order.Nodup) {t : T} (ht : t ∈ order) (f : T → List UInt64)
    (e : UInt64) :
    (order.flatMap fun u => if t = u then e :: f u else f u).Perm (e :: order.flatMap f) := by
  obtain ⟨before, after, rfl⟩ := append_of_mem ht
  have hb : t ∉ before := fun h => disjoint_of_nodup_append hnodup h mem_cons_self
  have ha : t ∉ after := (nodup_cons.mp (nodup_append.mp hnodup).2.1).1
  have hsame : ∀ l : List T, t ∉ l →
      (l.flatMap fun u => if t = u then e :: f u else f u) = l.flatMap f := by
    intro l hl
    refine flatMap_congr fun u hu => if_neg ?_
    intro htu
    exact hl (htu ▸ hu)
  rw [flatMap_append, flatMap_append, flatMap_cons, flatMap_cons, hsame _ hb,
    hsame _ ha, if_pos rfl, cons_append]
  exact perm_middle

theorem flatMap_recordedBy_perm (hnodup : order.Nodup) (hall : ∀ t, t ∈ order)
    (log : List (TimerEntry T)) :
    (order.flatMap fun t => recordedBy t log).Perm (allRecorded log) := by
  induction log with
  | nil =>
    have hnil : (order.flatMap fun t => recordedBy t []) = [] :=
      flatMap_eq_nil_iff.mpr fun _ _ => rfl
    rw [hnil]
    exact List.Perm.refl _
  | cons entry log ih =>
    cases entry with
    | recorded t e =>
      exact (flatMap_cons_at hnodup (hall t) (fun u => recordedBy u log) e).trans (ih.cons e)
    | copied t old => exact ih

theorem copiesOf_step {op : TimerOp T} (hop : ∀ t, op ≠ .checkpoint t) (t : T) :
    copiesOf t (timerStep s op).log = copiesOf t s.log := by
  cases op with
  | start u now | queue u ns | stop u now => rfl
  | checkpoint u => exact absurd rfl (hop u)

variable {ops : List (TimerOp T)}

theorem copiesOf_run (hops : ∀ t, TimerOp.checkpoint t ∉ ops) (t : T) :
    copiesOf t (timerRun ops).log = [] := by
  have hfold : ∀ s : TimerState T,
      copiesOf t (ops.foldl timerStep s).log = copiesOf t s.log := by
    induction ops with
    | nil =>
      intro s
      rfl
    | cons op ops ih =>
      intro s
      have hop : ∀ u, op ≠ .checkpoint u := fun u h => hops u (h ▸ mem_cons_self)
      have hrest : ∀ u, TimerOp.checkpoint u ∉ ops := fun u h => hops u (mem_cons_of_mem _ h)
      rw [foldl_cons, ih hrest, copiesOf_step hop]
  exact hfold _

theorem liveValues_of_no_checkpoint (hops : ∀ t, TimerOp.checkpoint t ∉ ops) (t : T) :
    liveValues t (timerRun ops).log = recordedBy t (timerRun ops).log := by
  have hcopies := (timerInv_run ops).copies t
  rw [copiesOf_run hops t, forall₂_nil_left_iff] at hcopies
  rw [← live_append_copied, hcopies, flatten_nil, append_nil]

/-- An event of thread `ev.1` that was queued for `ev.2` and then took no time at all. -/
def recordingOp (ev : T × UInt64) : List (TimerOp T) :=
  [.start ev.1 ⟨0, 0⟩, .queue ev.1 ev.2, .stop ev.1 ⟨0, 0⟩]

theorem log_recordingOp (s : TimerState T) (ev : T × UInt64) :
    ((recordingOp ev).foldl timerStep s).log = .recorded ev.1 ev.2 :: s.log := by
  have hdiff : timespecDiff ⟨0, 0⟩ ⟨0, 0⟩ = 0 := rfl
  simp [recordingOp, timerStep, sbTimerStart, sbTimerStop, sbTimerElapsed, hdiff]

/-- Any values, in any order and on any threads, are the record of a run without checkpoints. -/
theorem log_recordingOps (evs : List (T × UInt64)) :
    (∀ t, TimerOp.checkpoint t ∉ evs.flatMap recordingOp) ∧
    (timerRun (evs.flatMap recordingOp)).log
      = evs.reverse.map fun ev => .recorded ev.1 ev.2 := by
  have hfold : ∀ s : TimerState T, ((evs.flatMap recordingOp).foldl timerStep s).log
      = (evs.reverse.map fun ev => TimerEntry.recorded ev.1 ev.2) ++ s.log := by
    induction evs with
    | nil =>
      intro s
      rfl
    | cons ev evs ih =>
      intro s
      rw [flatMap_cons, foldl_append, ih, log_recordingOp, reverse_cons,
        map_append, append_assoc]
      rfl
  refine ⟨?_, ?_⟩
  · intro t ht
    obtain ⟨ev, -, hev⟩ := mem_flatMap.mp ht
    simp [recordingOp] at hev
  · exact (hfold _).trans (append_nil _)

omit [DecidableEq T] in
theorem allRecorded_map_recorded (evs : List (T × UInt64)) :
    allRecorded (evs.map fun ev => TimerEntry.recorded ev.1 ev.2) = evs.map Prod.snd := by
  induction evs with
  | nil => rfl
  | cons ev evs ih => exact congrArg (ev.2 :: ·) ih

/-! ### Reports -/

/-- What the reporting code reads off a merged timer, against the values it stands for.  The
event counter has 64 bits, and the minimum is taken for absent when it shows zero. -/
structure LatencyReport (m : SbTimer) (vals : List UInt64) : Prop where
  events : m.events.toNat = vals.length % 2 ^ 64
  sum : m.sumTime.toNat = (vals.map UInt64.toNat).sum % 2 ^ 64
  min_none : vals.length % 2 ^ 64 = 0 → sbTimerMin m = 0
  min_some : vals.length % 2 ^ 64 ≠ 0 → sbTimerMin m ∈ vals ∧ ∀ v ∈ vals, sbTimerMin m ≤ v
  max_none : vals = [] → sbTimerMax m = 0
  max_some : vals ≠ [] → sbTimerMax m ∈ vals ∧ ∀ v ∈ vals, v ≤ sbTimerMax m

theorem toNat_sum (vals : List UInt64) :
    vals.sum.toNat = (vals.map UInt64.toNat).sum % 2 ^ 64 := by
  induction vals with
  | nil => rfl
  | cons v vals ih =>
    rw [sum_cons, UInt64.toNat_add, ih, map_cons, sum_cons, Nat.add_mod_mod]

theorem Summarises.report {m : SbTimer} {vals : List UInt64} (h : Summarises m vals) :
    LatencyReport m vals := by
  have hevents : m.events.toNat = vals.length % 2 ^ 64 := by
    rw [h.events, UInt64.toNat_ofNat']
  have hzero : m.events = 0 ↔ vals.length % 2 ^ 64 = 0 := by
    rw [← hevents, ← UInt64.toNat_inj]
    rfl
  refine ⟨hevents, by rw [h.sum, toNat_sum], ?_, ?_, ?_, ?_⟩
  · intro hlen
    exact if_pos (hzero.mpr hlen)
  · intro hlen
    have hmin : sbTimerMin m = m.minTime := if_neg fun hc => hlen (hzero.mp hc)
    rw [hmin]
    refine ⟨?_, h.min_le⟩
    rcases h.min_attained with hmax | hmem
    · -- Every value is at least UINT64_MAX, so it is that.
      have hpos : 0 < vals.length := Nat.pos_of_ne_zero fun hc => hlen (by rw [hc, Nat.zero_mod])
      obtain ⟨v, hv⟩ := exists_mem_of_length_pos hpos
      have hle := h.min_le v hv
      rw [hmax] at hle ⊢
      rwa [UInt64.le_antisymm hle (le_uint64Max v)]
    · exact hmem
  · intro hnil
    subst hnil
    exact h.max_attained.resolve_right nofun
  · intro hne
    refine ⟨?_, h.le_max⟩
    rcases h.max_attained with hzero | hmem
    · obtain ⟨v, hv⟩ := exists_mem_of_ne_nil vals hne
      have hle := h.le_max v hv
      show m.maxTime ∈ vals
      rw [hzero] at hle ⊢
      rwa [← UInt64.le_antisymm hle UInt64.zero_le]
    · exact hmem

/-- Merging the threads' timers in any order reports on everything recorded. -/
theorem report_mergeTimers (hops : ∀ t, TimerOp.checkpoint t ∉ ops) (hnodup : order.Nodup)
    (hall : ∀ t, t ∈ order) :
    LatencyReport (mergeTimers (order.map (timerRun ops).timers))
      (allRecorded (timerRun ops).log) := by
  have hsum : ∀ t, Summarises ((timerRun ops).timers t) (recordedBy t (timerRun ops).log) := by
    intro t
    rw [← liveValues_of_no_checkpoint hops t]
    exact (timerInv_run ops).live t
  have hmerged := summarises_mergeTimers _ _ hsum order
  exact (hmerged.perm (flatMap_recordedBy_perm hnodup hall _)).report

/-- **Latency statistics do not depend on how events are spread over threads.**  Whatever the
threads did, merging their timers in any order reports on all the values recorded; and with
checkpoints anywhere, the values of a thread are divided, in order, among its copies and its
live timer, each of which summarises its own share. -/
theorem merged_timers_report (ops : List (TimerOp T)) (order : List T) (hnodup : order.Nodup)
    (hall : ∀ t, t ∈ order) :
    ((∀ t, TimerOp.checkpoint t ∉ ops) →
      LatencyReport (mergeTimers (order.map (timerRun ops).timers))
        (allRecorded (timerRun ops).log)) ∧
    ∀ t, Summarises ((timerRun ops).timers t) (liveValues t (timerRun ops).log) ∧
      List.Forall₂ Summarises (copiesOf t (timerRun ops).log)
        (copiedValues t (timerRun ops).log) ∧
      liveValues t (timerRun ops).log ++ (copiedValues t (timerRun ops).log).flatten
        = recordedBy t (timerRun ops).log := by
  refine ⟨?_, ?_⟩
  · intro hops
    exact report_mergeTimers hops hnodup hall
  · intro t
    have hinv := timerInv_run ops
    exact ⟨hinv.live t, hinv.copies t, live_append_copied t _⟩

end Runs

theorem merged_timers_report_two :
    ([1, 0] : List (Fin 2)).Nodup ∧ (∀ t : Fin 2, t ∈ [1, 0]) ∧
    LatencyReport
      (mergeTimers ([1, 0].map (timerRun [.stop (0 : Fin 2) ⟨0, 7⟩, .stop 1 ⟨0, 3⟩]).timers))
      (allRecorded (timerRun [.stop (0 : Fin 2) ⟨0, 7⟩, .stop 1 ⟨0, 3⟩]).log) := by
  have hnodup : ([1, 0] : List (Fin 2)).Nodup := by decide
  have hall : ∀ t : Fin 2, t ∈ [1, 0] := by decide
  refine ⟨hnodup, hall, (merged_timers_report _ _ hnodup hall).1 ?_⟩
  intro t ht
  simp at ht

/-- 2^64 events of one thread, each taking one nanosecond. -/
def wrappingOps : List (TimerOp Unit) :=
  (List.replicate (2 ^ 64) ((), (1 : UInt64))).flatMap recordingOp

/-- The event counter has then gone round, and the merged timer shows no event at all. -/
theorem merged_timers_wrap :
    (∀ t, TimerOp.checkpoint t ∉ wrappingOps) ∧
    (allRecorded (timerRun wrappingOps).log).length = 2 ^ 64 ∧
    (∀ v ∈ allRecorded (timerRun wrappingOps).log, v = 1) ∧
    (mergeTimers ([()].map (timerRun wrappingOps).timers)).events = 0 ∧
    sbTimerMin (mergeTimers ([()].map (timerRun wrappingOps).timers)) = 0 := by
  obtain ⟨hops, hlog⟩ := log_recordingOps (List.replicate (2 ^ 64) ((), (1 : UInt64)))
  have hvals : allRecorded (timerRun wrappingOps).log
      = (List.replicate (2 ^ 64) ((), (1 : UInt64))).map Prod.snd := by
    rw [wrappingOps, hlog, allRecorded_map_recorded, reverse_replicate]
  have hlength : (allRecorded (timerRun wrappingOps).log).length = 2 ^ 64 := by
    rw [hvals, length_map, length_replicate]
  have hreport : LatencyReport (mergeTimers ([()].map (timerRun wrappingOps).timers))
      (allRecorded (timerRun wrappingOps).log) :=
    report_mergeTimers hops (nodup_singleton ()) fun _ => mem_singleton.mpr rfl
  refine ⟨hops, hlength, ?_, ?_, ?_⟩
  · intro v hv
    rw [hvals] at hv
    obtain ⟨ev, hev, rfl⟩ := mem_map.mp hv
    rw [eq_of_mem_replicate hev]
  · have hevents := hreport.events
    rw [hlength, Nat.mod_self] at hevents
    exact UInt64.toNat_inj.mp hevents
  · exact hreport.min_none (by rw [hlength, Nat.mod_self])

end Sysbench
