/-
When intermediate reports are due.

A pause ends at its deadline or later, so the reading behind the report has passed it: the loop
starts from a deadline in the past.  It goes on by whole intervals, and the first deadline in
the future is at most one interval away.  All this is 64-bit arithmetic, and right as long as
that deadline is a 64-bit number.
-/
import Sysbench.Lib.Runs
import Sysbench.Model.ReportThreads

namespace Sysbench.ReportThreads

open Init Runs

variable {fuel : ℕ} {reportInterval : UInt32} {startNs currNs : UInt64} {s : ReportThread}

/-- The interval in nanoseconds -/
def intervalOf (reportInterval : UInt32) : ℕ := reportInterval.toNat * 10 ^ 9

/-- Seconds that are an `unsigned int` are nanoseconds that are a 64-bit number. -/
theorem toNat_sec2ns (n : UInt32) : (sec2ns n.toNat).toNat = n.toNat * 10 ^ 9 := by
  have hn := n.toNat_lt
  rw [sec2ns, UInt64.toNat_mul]
  show _ % 2 ^ 64 * 1000000000 % 2 ^ 64 = _
  omega

theorem toNat_add_interval {prevNs : UInt64}
    (h : prevNs.toNat + intervalOf reportInterval < 2 ^ 64) :
    (prevNs + sec2ns reportInterval.toNat).toNat = prevNs.toNat + intervalOf reportInterval := by
  rw [UInt64.toNat_add, toNat_sec2ns]
  exact Nat.mod_eq_of_lt h

/-- **The loop over the deadlines**: it ends with the first one that the reading has not passed,
and that is `k` intervals away. -/
theorem deadlineLoop_eq {prevNs : UInt64} {k : ℕ}
    (hpast : prevNs.toNat + k * intervalOf reportInterval ≤ currNs.toNat)
    (hfuture : currNs.toNat < prevNs.toNat + (k + 1) * intervalOf reportInterval)
    (hfits : prevNs.toNat + (k + 1) * intervalOf reportInterval < 2 ^ 64) (hfuel : k < fuel) :
    ∃ nextNs, deadlineLoop (sec2ns reportInterval.toNat) currNs fuel prevNs = some nextNs ∧
      nextNs.toNat = prevNs.toNat + (k + 1) * intervalOf reportInterval := by
  induction k generalizing prevNs fuel with
  | zero =>
    obtain ⟨fuel, rfl⟩ := Nat.exists_eq_add_one_of_ne_zero hfuel.ne'
    rw [Nat.one_mul] at hfuture hfits ⊢
    have hnext := toNat_add_interval hfits
    refine ⟨_, if_neg ?_, hnext⟩
    rw [ge_iff_le, UInt64.le_iff_toNat_le, hnext]
    omega
  | succ k ih =>
    obtain ⟨fuel, rfl⟩ := Nat.exists_eq_add_one_of_ne_zero (Nat.ne_zero_of_lt hfuel)
    have hk : (k + 1) * intervalOf reportInterval
        = intervalOf reportInterval + k * intervalOf reportInterval := by ring
    have hk' : (k + 1 + 1) * intervalOf reportInterval
        = intervalOf reportInterval + (k + 1) * intervalOf reportInterval := by ring
    rw [hk', ← Nat.add_assoc] at hfuture hfits ⊢
    have hnext : (prevNs + sec2ns reportInterval.toNat).toNat
        = prevNs.toNat + intervalOf reportInterval := toNat_add_interval (by omega)
    have hmore : currNs ≥ prevNs + sec2ns reportInterval.toNat := by
      rw [ge_iff_le, UInt64.le_iff_toNat_le, hnext]
      omega
    rw [← hnext] at hfuture hfits ⊢
    rw [deadlineLoop, if_pos hmore]
    exact ih (by omega) hfuture hfits (Nat.lt_of_succ_lt_succ hfuel)

/-- The reading is made when the pause is over. -/
def Slept (s : ReportThread) (currNs : UInt64) : Prop :=
  s.currNs.toNat + s.pauseNs.toNat ≤ currNs.toNat

instance (s : ReportThread) (currNs : UInt64) : Decidable (Slept s currNs) :=
  inferInstanceAs (Decidable (_ ≤ _))

/-- The first of the deadlines, one interval apart from the start on, that lies behind the
reading -/
def deadlineAfter (reportInterval : UInt32) (startNs currNs : UInt64) : ℕ :=
  startNs.toNat + ((currNs.toNat - startNs.toNat) / intervalOf reportInterval + 1)
    * intervalOf reportInterval

/-- What is expected of `next_ns` and of the pause. -/
structure RightDeadline (reportInterval : UInt32) (startNs : UInt64) (s : ReportThread)
    (currNs : UInt64) (r : ReportThread × UInt64) : Prop where
  multiple : ∃ k, 1 ≤ k ∧ r.2.toNat
    = startNs.toNat + intervalOf reportInterval + k * intervalOf reportInterval
  later : currNs.toNat < r.2.toNat
  least : r.2.toNat - intervalOf reportInterval ≤ currNs.toNat
  pause_eq : currNs.toNat + r.1.pauseNs.toNat = r.2.toNat
  pause_pos : 0 < r.1.pauseNs.toNat
  pause_le : r.1.pauseNs.toNat ≤ intervalOf reportInterval
  increases : s.prevNs.toNat < r.2.toNat

/-- Between two reports: `prev_ns` is the deadline that the pause leads to. -/
structure Waiting (reportInterval : UInt32) (startNs : UInt64) (s : ReportThread) (m : ℕ) :
    Prop where
  pos : 1 ≤ m
  prev : s.prevNs = UInt64.ofNat (startNs.toNat + m * intervalOf reportInterval)
  pause : s.currNs.toNat + s.pauseNs.toNat = startNs.toNat + m * intervalOf reportInterval

theorem waiting_start (reportInterval : UInt32) (startNs : UInt64) :
    Waiting reportInterval startNs (.start reportInterval startNs) 1 where
  pos := Nat.le_refl 1
  prev := by
    rw [Nat.one_mul]
    apply UInt64.toNat_inj.mp
    rw [ReportThread.start, UInt64.toNat_add, toNat_sec2ns, UInt64.toNat_ofNat']
    rfl
  pause := by
    rw [Nat.one_mul, ReportThread.start, toNat_sec2ns]
    rfl

theorem Waiting.round {m : ℕ} (h : Waiting reportInterval startNs s m)
    (hinterval : reportInterval ≠ 0) (hfuel : 2 ^ 64 ≤ fuel) (hslept : Slept s currNs)
    (hfits : deadlineAfter reportInterval startNs currNs < 2 ^ 64) :
    ∃ s' nextNs, reportRound fuel reportInterval s currNs = .ok (s', nextNs) ∧
      RightDeadline reportInterval startNs s currNs (s', nextNs) ∧
      ∃ m', Waiting reportInterval startNs s' m' := by
  have hcurr := currNs.toNat_lt
  have hpos : 0 < intervalOf reportInterval := by
    have hne : reportInterval.toNat ≠ 0 := fun hc => hinterval (UInt32.toNat_inj.mp hc)
    exact Nat.mul_pos (Nat.pos_of_ne_zero hne) (by decide)
  -- The deadline is in the past, `k` intervals and a rest.
  have hpast : startNs.toNat + m * intervalOf reportInterval ≤ currNs.toNat := h.pause ▸ hslept
  have hprev : s.prevNs.toNat = startNs.toNat + m * intervalOf reportInterval := by
    rw [h.prev, UInt64.toNat_ofNat']
    exact Nat.mod_eq_of_lt (by omega)
  obtain ⟨k, hk⟩ : ∃ k, (currNs.toNat - startNs.toNat) / intervalOf reportInterval = m + k :=
    Nat.exists_eq_add_of_le ((Nat.le_div_iff_mul_le hpos).mpr (by omega))
  have hdue := Nat.div_add_mod' (currNs.toNat - startNs.toNat) (intervalOf reportInterval)
  have hrest := Nat.mod_lt (currNs.toNat - startNs.toNat) hpos
  rw [hk, Nat.add_mul] at hdue
  have hnext : deadlineAfter reportInterval startNs currNs
      = s.prevNs.toNat + (k + 1) * intervalOf reportInterval := by
    rw [deadlineAfter, hk, hprev]
    ring
  have hone : (k + 1) * intervalOf reportInterval
      = k * intervalOf reportInterval + intervalOf reportInterval := by ring
  have hk_le : k ≤ k * intervalOf reportInterval := Nat.le_mul_of_pos_right k hpos
  rw [hnext] at hfits
  have hbefore : s.prevNs.toNat + k * intervalOf reportInterval ≤ currNs.toNat := by omega
  obtain ⟨nextNs, hloop, hnext⟩ := deadlineLoop_eq hbefore (by omega) hfits
    (show k < fuel by omega)
  have hlater : currNs.toNat < nextNs.toNat := by omega
  have hpause : (nextNs - currNs).toNat = nextNs.toNat - currNs.toNat :=
    UInt64.toNat_sub_of_le _ _ (UInt64.le_iff_toNat_le.mpr hlater.le)
  have hmultiple : nextNs.toNat = startNs.toNat + (m + (k + 1)) * intervalOf reportInterval := by
    rw [hnext, hprev]
    ring
  refine ⟨_, nextNs, by rw [reportRound, hloop], ?_, m + (k + 1), ?_, ?_, ?_⟩
  · exact {
      multiple := by
        obtain ⟨j, rfl⟩ := Nat.exists_eq_add_of_le h.pos
        exact ⟨j + (k + 1), by omega, by rw [hmultiple]; ring⟩
      later := hlater
      least := by show nextNs.toNat - _ ≤ _; omega
      pause_eq := by show _ + (nextNs - currNs).toNat = nextNs.toNat; omega
      pause_pos := by show 0 < (nextNs - currNs).toNat; omega
      pause_le := by show (nextNs - currNs).toNat ≤ _; omega
      increases := by show _ < nextNs.toNat; omega }
  · omega
  · rw [← hmultiple, UInt64.ofNat_toNat]
  · show currNs.toNat + (nextNs - currNs).toNat = _
    omega

/-- **Intermediate reports are due at multiples of the interval.**  Whatever the reports take and
however late the pauses end, behind each report the loop picks the first deadline in the future,
if this is a 64-bit number. -/
theorem report_deadlines (reportInterval : UInt32) (hinterval : reportInterval ≠ 0)
    (startNs : UInt64) (hfuel : 2 ^ 64 ≤ fuel) (readings : List UInt64)
    (hclock : EachState (reportRound fuel reportInterval)
      (fun s currNs => Slept s currNs ∧ deadlineAfter reportInterval startNs currNs < 2 ^ 64)
      (.start reportInterval startNs) readings) :
    EachCall (reportRound fuel reportInterval) (RightDeadline reportInterval startNs)
      (.start reportInterval startNs) readings := by
  apply hclock.eachCall (J := fun s => ∃ m, Waiting reportInterval startNs s m)
  · exact ⟨1, waiting_start reportInterval startNs⟩
  · rintro s currNs ⟨m, hm⟩ ⟨hslept, hfits⟩
    exact hm.round hinterval hfuel hslept hfits

/-- The first report ends half a second after its second deadline, the next one in time. -/
theorem late_report_and_report_in_time :
    EachCall (reportRound (2 ^ 64) 1) (RightDeadline 1 0) (.start 1 0)
      [3500000000, 4200000000] := by
  have hround : reportRound (2 ^ 64) 1 (.start 1 0) 3500000000
      = .ok (⟨500000000, 4000000000, 3500000000⟩, 4000000000) := rfl
  refine report_deadlines 1 (by decide) 0 (Nat.le_refl _) _ ⟨⟨by decide, by decide⟩, ?_⟩
  intro s' r hs'
  rw [hround] at hs'
  cases hs'
  exact ⟨⟨by decide, by decide⟩, fun _ _ _ => trivial⟩

/-- No deadline is behind the last reading there is. -/
theorem deadlineLoop_last (intervalNs prevNs : UInt64) (fuel : ℕ) :
    deadlineLoop intervalNs 18446744073709551615 fuel prevNs = none := by
  induction fuel generalizing prevNs with
  | zero => rfl
  | succ fuel ih =>
    have hmore : (18446744073709551615 : UInt64) ≥ prevNs + intervalNs := by
      have hlt := (prevNs + intervalNs).toNat_lt
      exact UInt64.le_iff_toNat_le.mpr (Nat.le_of_lt_succ hlt)
    rw [deadlineLoop, if_pos hmore]
    exact ih _

/-- A report that lasts that long is followed by a loop without an end. -/
theorem last_reading_has_no_deadline :
    Slept (.start 1 0) 18446744073709551615 ∧
      ¬∃ fuel r, reportRound fuel 1 (.start 1 0) 18446744073709551615 = .ok r := by
  refine ⟨by decide, ?_⟩
  rintro ⟨fuel, r, hr⟩
  rw [reportRound, deadlineLoop_last] at hr
  exact nomatch hr

end Sysbench.ReportThreads
