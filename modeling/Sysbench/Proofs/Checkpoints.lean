/-
The checkpoints and their reports.

`checkpoint_cmp` casts a difference of unsigned numbers to `int`.  That is an order on numbers
up to `INT_MAX`, and `init` turns down all others, so `qsort` may be called with it.  The thread
skips a checkpoint that has passed; since a report is made when its checkpoint has passed, it
skips all that are equal.
-/
import Sysbench.Proofs.FileSizes
import Sysbench.Proofs.ReportDeadlines

namespace Sysbench.ReportThreads

open List FileIo Init Options

variable {files : Files} {strtod : Text → ℚ} {room : Room}
  {qsort : (UInt32 → UInt32 → ℤ) → List UInt32 → List UInt32} {options rest : Registry}
  {config : InitConfig} {checkpoints : List UInt32}

/-! ### The array -/

/-- The comparison function is a total preorder on the elements. -/
structure TotalPreorder (cmp : UInt32 → UInt32 → ℤ) (l : List UInt32) : Prop where
  flip : ∀ a ∈ l, ∀ b ∈ l, cmp a b < 0 ↔ 0 < cmp b a
  trans : ∀ a ∈ l, ∀ b ∈ l, ∀ c ∈ l, cmp a b ≤ 0 → cmp b c ≤ 0 → cmp a c ≤ 0

/-- What `qsort` promises. -/
def Sorts (qsort : (UInt32 → UInt32 → ℤ) → List UInt32 → List UInt32) : Prop :=
  ∀ cmp l, TotalPreorder cmp l →
    (qsort cmp l).Perm l ∧ (qsort cmp l).Pairwise fun a b => cmp a b ≤ 0

theorem checkpointCmp_eq {a b : UInt32} (ha : a.toNat < 2 ^ 31) (hb : b.toNat < 2 ^ 31) :
    checkpointCmp a b = (a.toNat : ℤ) - b.toNat := by
  have hsub : ((a - b).toNat : ℤ) = ((a.toNat : ℤ) - b.toNat) % (2 ^ 32 : ℕ) := by
    rw [UInt32.toNat_sub]
    omega
  unfold checkpointCmp
  rw [hsub, Int.emod_bmod]
  exact Int.bmod_eq_of_le (by omega) (by omega)

theorem totalPreorder_checkpointCmp (h : ∀ c ∈ checkpoints, c.toNat < 2 ^ 31) :
    TotalPreorder checkpointCmp checkpoints where
  flip := by
    intro a ha b hb
    rw [checkpointCmp_eq (h a ha) (h b hb), checkpointCmp_eq (h b hb) (h a ha)]
    omega
  trans := by
    intro a ha b hb c hc
    rw [checkpointCmp_eq (h a ha) (h b hb), checkpointCmp_eq (h b hb) (h c hc),
      checkpointCmp_eq (h a ha) (h c hc)]
    omega

theorem readCheckpoints_eq {stored : List UInt32} {vals : List Text}
    (h : readCheckpoints stored vals = .ok checkpoints) :
    checkpoints = stored ++ vals.map (fun v => UInt32.ofInt (strtol v).1) ∧
      ∀ v ∈ vals, 0 ≤ (strtol v).1 ∧ (strtol v).1 < 2 ^ 31 := by
  induction vals generalizing stored with
  | nil =>
    cases h
    exact ⟨(append_nil _).symm, nofun⟩
  | cons v vals ih =>
    unfold readCheckpoints at h
    dsimp only at h
    split at h
    · cases h
    · split at h
      · cases h
      · obtain ⟨hrest, hbounds⟩ := ih h
        refine ⟨?_, forall_mem_cons.mpr ⟨by omega, hbounds⟩⟩
        rw [hrest, append_assoc]
        rfl

/-- The array holds the given values, in ascending order. -/
structure Ascending (vals : List Text) (checkpoints : List UInt32) : Prop where
  perm : (checkpoints.map fun c => (c.toNat : ℤ)).Perm (vals.map fun v => (strtol v).1)
  sorted : checkpoints.Pairwise (· ≤ ·)

theorem ascending_getCheckpoints (hqsort : Sorts qsort)
    (h : getCheckpoints qsort options = .ok checkpoints) :
    ∃ vals, sbGetValueList options "report-checkpoints".toList = some vals ∧
      Ascending vals checkpoints := by
  unfold getCheckpoints at h
  split at h
  · cases h
  · rename_i vals hvals
    obtain ⟨stored, hread, h⟩ : ∃ stored, readCheckpoints [] vals = .ok stored ∧
        qsort checkpointCmp stored = checkpoints := by
      cases hread : readCheckpoints [] vals with
      | error e =>
        rw [hread] at h
        cases h
      | ok stored =>
        rw [hread] at h
        exact ⟨stored, rfl, Except.ok.inj h⟩
    obtain ⟨rfl, hbounds⟩ := readCheckpoints_eq hread
    rw [nil_append] at h
    have hvalue : ∀ v ∈ vals, ((UInt32.ofInt (strtol v).1).toNat : ℤ) = (strtol v).1 := by
      intro v hv
      have hv := hbounds v hv
      rw [toNat_uint32_ofInt]
      omega
    have hsmall : ∀ c ∈ vals.map fun v => UInt32.ofInt (strtol v).1, c.toNat < 2 ^ 31 := by
      intro c hc
      obtain ⟨v, hv, rfl⟩ := mem_map.mp hc
      have hv' := hvalue v hv
      have hbound := hbounds v hv
      omega
    obtain ⟨hperm, hsorted⟩ := hqsort checkpointCmp _ (totalPreorder_checkpointCmp hsmall)
    rw [h] at hperm hsorted
    refine ⟨vals, hvals, ?_, ?_⟩
    · have hgiven : (vals.map fun v => UInt32.ofInt (strtol v).1).map (fun c => (c.toNat : ℤ))
          = vals.map fun v => (strtol v).1 := by
        rw [map_map]
        exact map_congr_left hvalue
      exact hgiven ▸ hperm.map _
    · refine hsorted.imp_of_mem fun {a b} ha hb hle => ?_
      rw [checkpointCmp_eq (hsmall a (hperm.mem_iff.mp ha)) (hsmall b (hperm.mem_iff.mp hb))] at hle
      exact UInt32.le_iff_toNat_le.mpr (by omega)

/-! ### The thread -/

/-- The readings never go back from `last` on, and the pauses last as long as they should. -/
def Clocked : (last : UInt64) → List UInt32 → List Readings → Prop
  | last, checkpoint :: checkpoints, r :: readings =>
    (last ≤ r.currNs ∧ r.currNs ≤ r.wokenNs) ∧
      (r.currNs < sec2ns checkpoint.toNat →
        r.currNs.toNat + (sec2ns checkpoint.toNat - r.currNs).toNat ≤ r.wokenNs.toNat) ∧
      Clocked r.wokenNs checkpoints readings
  | _, _, _ => True

/-- No report comes before its time, and they come in ascending order, each once. -/
structure InTime (checkpoints : List UInt32) (reports : List (UInt32 × UInt64)) : Prop where
  sublist : (reports.map Prod.fst).Sublist checkpoints
  time : ∀ p ∈ reports, p.1.toNat * 10 ^ 9 ≤ p.2.toNat
  ascending : (reports.map Prod.fst).Pairwise (· < ·)

theorem inTime_checkpointsThreadProc {last : UInt64} {readings : List Readings}
    (h : Clocked last checkpoints readings) :
    InTime checkpoints (checkpointsThreadProc checkpoints readings) ∧
      ∀ p ∈ checkpointsThreadProc checkpoints readings, last.toNat < p.1.toNat * 10 ^ 9 := by
  induction checkpoints generalizing last readings with
  | nil => exact ⟨⟨.slnil, nofun, .nil⟩, nofun⟩
  | cons checkpoint checkpoints ih =>
    cases readings with
    | nil => exact ⟨⟨nil_sublist _, nofun, .nil⟩, nofun⟩
    | cons r readings =>
      obtain ⟨⟨hlast, hwoken⟩, hslept, hrest⟩ := h
      rw [UInt64.le_iff_toNat_le] at hlast hwoken
      rw [UInt64.lt_iff_toNat_lt] at hslept
      obtain ⟨hright, hlater⟩ := ih hrest
      unfold checkpointsThreadProc
      by_cases hpassed : sec2ns checkpoint.toNat ≤ r.currNs
      · rw [if_pos hpassed]
        refine ⟨⟨hright.sublist.cons _, hright.time, hright.ascending⟩, fun p hp => ?_⟩
        have hp := hlater p hp
        omega
      · rw [if_neg hpassed]
        have hahead : r.currNs ≤ sec2ns checkpoint.toNat := by
          rw [UInt64.le_iff_toNat_le] at hpassed ⊢
          omega
        rw [UInt64.toNat_sub_of_le _ _ hahead, toNat_sec2ns] at hslept
        rw [UInt64.le_iff_toNat_le, toNat_sec2ns] at hpassed hahead
        have htime : checkpoint.toNat * 10 ^ 9 ≤ r.wokenNs.toNat := by omega
        refine ⟨⟨hright.sublist.cons_cons _, ?_, ?_⟩, ?_⟩
        · exact forall_mem_cons.mpr ⟨htime, hright.time⟩
        · refine pairwise_cons.mpr ⟨fun c hc => ?_, hright.ascending⟩
          obtain ⟨p, hp, rfl⟩ := mem_map.mp hc
          have hp := hlater p hp
          exact UInt32.lt_iff_toNat_lt.mpr (show checkpoint.toNat < _ by omega)
        · refine forall_mem_cons.mpr ⟨show _ < checkpoint.toNat * _ by omega, fun p hp => ?_⟩
          have hp := hlater p hp
          omega

/-- **Checkpoint reports.**  The array is what was given, sorted, and the thread reports a
checkpoint only when its time has come, in ascending order and no value twice. -/
theorem checkpoint_reports (hqsort : Sorts qsort)
    (hinit : Init.init files strtod room qsort options = .ok (config, rest)) :
    (∃ vals, sbGetValueList rest "report-checkpoints".toList = some vals ∧
      Ascending vals config.checkpoints) ∧
    ∀ readings, Clocked 0 config.checkpoints readings →
      InTime config.checkpoints (checkpointsThreadProc config.checkpoints readings) :=
  ⟨ascending_getCheckpoints hqsort (init_stored hinit).2,
    fun _ hclock => (inTime_checkpointsThreadProc hclock).1⟩

/-- A `qsort` -/
def insertionSort (cmp : UInt32 → UInt32 → ℤ) (l : List UInt32) : List UInt32 :=
  l.insertionSort fun a b => cmp a b ≤ 0

theorem sorts_insertionSort : Sorts insertionSort := by
  intro cmp l h
  refine ⟨perm_insertionSort _ l, ?_⟩
  -- The order is one on the elements of the list only.
  let r : {a // a ∈ l} → {a // a ∈ l} → Prop := fun a b => cmp a.1 b.1 ≤ 0
  have htotal : Std.Total r := ⟨fun a b => by
    have hflip := h.flip b b.2 a a.2
    show cmp a.1 b.1 ≤ 0 ∨ cmp b.1 a.1 ≤ 0
    omega⟩
  have htrans : IsTrans _ r := ⟨fun a b c => h.trans a a.2 b b.2 c c.2⟩
  have hmap := map_insertionSort r (fun a b => cmp a b ≤ 0) Subtype.val l.attach
    fun _ _ _ _ => Iff.rfl
  rw [attach_map_subtype_val] at hmap
  rw [insertionSort, ← hmap, pairwise_map]
  exact pairwise_insertionSort r l.attach

/-- The first checkpoint has passed when the thread looks at it; the other is given twice. -/
theorem checkpoint_reported_once :
    ∃ config rest, Init.init (fun _ => none) decimal ample insertionSort
        (commandLine ["fileio", "--report-checkpoints=5,1,5", "prepare"]) = .ok (config, rest) ∧
      Ascending ["5".toList, "1".toList, "5".toList] config.checkpoints ∧
      InTime config.checkpoints [(5, 5000000001)] := by
  have hall : ((Init.init (fun _ => none) decimal ample insertionSort
      (commandLine ["fileio", "--report-checkpoints=5,1,5", "prepare"])).toOption.any fun r =>
        r.1.checkpoints = [1, 5, 5] ∧ sbGetValueList r.2 "report-checkpoints".toList
          = some ["5".toList, "1".toList, "5".toList]) = true := by
    decide +kernel
  cases hinit : Init.init (fun _ => none) decimal ample insertionSort
      (commandLine ["fileio", "--report-checkpoints=5,1,5", "prepare"]) with
  | error e =>
    rw [hinit] at hall
    exact nomatch hall
  | ok r =>
    obtain ⟨config, rest⟩ := r
    rw [hinit] at hall
    obtain ⟨hcheckpoints, hgiven⟩ := of_decide_eq_true hall
    obtain ⟨⟨vals, hvals, hascending⟩, hreports⟩ := checkpoint_reports sorts_insertionSort hinit
    cases hgiven.symm.trans hvals
    have hclock : Clocked 0 config.checkpoints [⟨2000000000, 2000000000⟩,
        ⟨2000000000, 5000000001⟩, ⟨6000000000, 6000000000⟩] := by
      rw [hcheckpoints]
      exact ⟨by decide, nofun, by decide, by decide, by decide, by decide, trivial⟩
    refine ⟨config, rest, rfl, hascending, ?_⟩
    have hintime := hreports _ hclock
    rwa [hcheckpoints] at hintime ⊢

end Sysbench.ReportThreads
