/-
Which `PGresult`s are cleared.

The results that libpq has handed out are in one of three places.  One is *held*: `rs->ptr` has
it, and the layer will have it cleared before the next query and before the connection ends.
Some are *lost*: nobody has a pointer to them any more.  All others have been cleared once.
`Owned` says so of a state of the driver, `Keeps` of a connection, and each effect of the layer
keeps it.

What is lost is told by the replies alone.  `pgsql_check_status` neither clears nor keeps a
result whose status it has no case for, and crashes before it clears an error that has no
SQLSTATE or no message; `pgsql_drv_bind_param` returns without clearing when `PQprepare` fails.
Nothing else is lost, in any run.
-/
import Sysbench.Model.PgsqlDriver
import Sysbench.Proofs.DbEffects

namespace Sysbench.PgResults

open List Runs

/-! ### The replies -/

/-- The driver clears a result it has obtained for this, sooner or later. -/
def Clears : Origin → Reply → Prop
  | .query, r | .execute, r =>
    r.status = .tuplesOk ∨ r.status = .commandOk ∨
      r.status = .fatalError ∧ r.sqlState.isSome ∧ r.hasMessage
  | .bindParam, r => r.status = .commandOk
  | .prepare, _ | .rollback, _ => True

instance decidableClears : ∀ (origin : Origin) (r : Reply), Decidable (Clears origin r)
  | .query, r | .execute, r =>
    inferInstanceAs (Decidable (r.status = .tuplesOk ∨ r.status = .commandOk ∨
      r.status = .fatalError ∧ r.sqlState.isSome ∧ r.hasMessage))
  | .bindParam, r => inferInstanceAs (Decidable (r.status = .commandOk))
  | .prepare, _ | .rollback, _ => inferInstanceAs (Decidable True)

/-- The results that are lost: their handles are numbered in the order of the replies. -/
def lost (replies : List (Origin × Reply)) : List (Handle Unit) :=
  (replies.zipIdx.filter fun p => ¬Clears p.1.1 p.1.2).map fun p => ((), p.2)

theorem lost_concat (replies : List (Origin × Reply)) (r : Origin × Reply) :
    lost (replies ++ [r])
      = lost replies ++ if Clears r.1 r.2 then [] else [((), replies.length)] := by
  unfold lost
  rw [zipIdx_append]
  by_cases h : Clears r.1 r.2
  · simp [h]
  · simp [h]

theorem mem_lost {replies : List (Origin × Reply)} {h : Handle Unit} :
    h ∈ lost replies ↔ ∃ r, replies[h.2]? = some r ∧ ¬Clears r.1 r.2 := by
  obtain ⟨-, n⟩ := h
  unfold lost
  simp only [mem_map, mem_filter, decide_eq_true_eq, Prod.mk.injEq, true_and]
  constructor
  · rintro ⟨⟨r, k⟩, ⟨hmem, hr⟩, rfl⟩
    exact ⟨r, mem_zipIdx_iff_getElem?.mp hmem, hr⟩
  · rintro ⟨r, hmem, hr⟩
    exact ⟨(r, n), ⟨mem_zipIdx_iff_getElem?.mpr hmem, hr⟩, rfl⟩

/-! ### What a state of the driver owns -/

variable {m : State} {held : List (Handle Unit)} {pgres : Pgres} {rs : RsData Pgres}

/-- The results in `held` and the lost ones are out; nothing has gone wrong so far, but for a
crash, which loses the result it happens at. -/
structure Owned (m : State) (held : List (Handle Unit)) : Prop where
  owns : m.ledger.Owns (held ++ lost m.replies)
  numbered : m.ledger.next = m.replies.length
  crashed : m.crashed = true → lost m.replies ≠ []

theorem owned_init (server : ℕ → Reply) : Owned (State.init server) [] :=
  ⟨Ledger.owns_empty, rfl, nofun⟩

variable {m' : State}

theorem Owned.same (hm : Owned m held) (hledger : m'.ledger = m.ledger)
    (hreplies : m'.replies = m.replies) (hcrashed : m'.crashed = m.crashed) : Owned m' held := by
  refine ⟨?_, ?_, ?_⟩
  · rw [hledger, hreplies]
    exact hm.owns
  · rw [hledger, hreplies]
    exact hm.numbered
  · rw [hcrashed, hreplies]
    exact hm.crashed

/-- A result that will be cleared is held when it is handed out. -/
theorem Owned.obtain_held (hm : Owned m held) (origin : Origin)
    (hclears : Clears origin m.reply) :
    Owned (m.obtain origin).1 ((m.obtain origin).2.handle :: held) := by
  have hlost : lost (m.obtain origin).1.replies = lost m.replies := by
    show lost (m.replies ++ [(origin, m.reply)]) = _
    rw [lost_concat, if_pos hclears, append_nil]
  refine ⟨?_, ?_, ?_⟩
  · rw [hlost]
    exact hm.owns.obtain ()
  · show m.ledger.next + 1 = (m.replies ++ [(origin, m.reply)]).length
    rw [hm.numbered, length_append]
    rfl
  · rw [hlost]
    exact hm.crashed

/-- Any other is lost from the beginning. -/
theorem Owned.obtain_lost (hm : Owned m held) (origin : Origin)
    (hclears : ¬Clears origin m.reply) :
    Owned (m.obtain origin).1 held ∧
      (m.obtain origin).2.handle ∈ lost (m.obtain origin).1.replies := by
  have hlost : lost (m.obtain origin).1.replies
      = lost m.replies ++ [(m.obtain origin).2.handle] := by
    show lost (m.replies ++ [(origin, m.reply)]) = _
    rw [lost_concat, if_neg hclears, ← hm.numbered]
    rfl
  have hmem : (m.obtain origin).2.handle ∈ lost (m.obtain origin).1.replies := by
    rw [hlost]
    exact mem_append_right _ mem_cons_self
  refine ⟨⟨?_, ?_, fun _ => ne_nil_of_mem hmem⟩, hmem⟩
  · rw [hlost]
    refine (hm.owns.obtain ()).perm ?_
    rw [← append_assoc]
    exact (perm_append_singleton _ _).symm
  · show m.ledger.next + 1 = (m.replies ++ [(origin, m.reply)]).length
    rw [hm.numbered, length_append]
    rfl

theorem Owned.read (hm : Owned m held)
    (hmem : pgres.handle ∈ held ∨ pgres.handle ∈ lost m.replies) :
    Owned (m.read (some pgres)) held :=
  ⟨hm.owns.use (mem_append.mpr hmem), hm.numbered, hm.crashed⟩

theorem Owned.crash (hm : Owned m held) (hmem : pgres.handle ∈ lost m.replies) :
    Owned m.crash held :=
  ⟨hm.owns, hm.numbered, fun _ => ne_nil_of_mem hmem⟩

theorem Owned.read_head (hm : Owned m (pgres.handle :: held)) :
    Owned (m.read (some pgres)) (pgres.handle :: held) :=
  hm.read (.inl mem_cons_self)

theorem Owned.pqClear (hm : Owned m (pgres.handle :: held)) :
    Owned (m.pqClear (some pgres)) held :=
  ⟨Ledger.Owns.release hm.owns, hm.numbered, hm.crashed⟩

/-! ### What the driver's operations leave -/

/-- The result that `rs->ptr` has. -/
def heldBy (ptr : Option Pgres) : List (Handle Unit) := (ptr.map Pgres.handle).toList

/-- An answer to the layer: the result that is held is in `rs->ptr`, and the answer says whether
there is one. -/
structure Handed (answer : State × DbError × RsData Pgres) : Prop where
  owned : Owned answer.1 (heldBy answer.2.2.ptr)
  result : answer.2.2.ptr ≠ none ↔ answer.2.1 = .none ∧ answer.2.2.counter = .read

/-- The cases of `pgsql_check_status`: the result is held and there are rows, or it is held no
longer. -/
theorem checked_tuples (rs : RsData Pgres) (hm : Owned m [pgres.handle])
    (hstatus : pgres.reply.status = .tuplesOk) :
    Owned (pgsqlCheckStatus m pgres rs).1 [pgres.handle] ∧
      (pgsqlCheckStatus m pgres rs).2.1 = .none ∧
      (pgsqlCheckStatus m pgres rs).2.2.counter = .read := by
  have hread := hm.read_head.read_head.read_head
  unfold pgsqlCheckStatus
  simp only [hstatus]
  exact ⟨hread, trivial, trivial⟩

theorem checked_command (hm : Owned m [pgres.handle]) (hstatus : pgres.reply.status = .commandOk) :
    Owned (pgsqlCheckStatus m pgres rs).1 [] ∧
      (pgsqlCheckStatus m pgres rs).2.2.counter ≠ .read := by
  unfold pgsqlCheckStatus
  simp only [hstatus]
  refine ⟨hm.read_head.read_head.pqClear, ?_⟩
  split <;> exact nofun

theorem checked_fatal (hm : Owned m [pgres.handle]) (hstatus : pgres.reply.status = .fatalError)
    (hstate : pgres.reply.sqlState.isSome) (hmessage : pgres.reply.hasMessage) :
    Owned (pgsqlCheckStatus m pgres rs).1 [] ∧
      (pgsqlCheckStatus m pgres rs).2.2.counter ≠ .read := by
  have hread := hm.read_head.read_head.read_head
  obtain ⟨sqlState, hsome⟩ := Option.isSome_iff_exists.mp hstate
  unfold pgsqlCheckStatus
  simp only [hstatus, hsome, hmessage, Bool.not_true, Bool.false_eq_true, if_false]
  split
  · exact ⟨(hread.obtain_held .rollback trivial).pqClear.pqClear, nofun⟩
  · exact ⟨hread.pqClear, nofun⟩

/-- An error without the fields: the driver crashes before it clears the result. -/
theorem checked_crash (hm : Owned m []) (hlost : pgres.handle ∈ lost m.replies)
    (hstatus : pgres.reply.status = .fatalError)
    (hfields : ¬(pgres.reply.sqlState.isSome ∧ pgres.reply.hasMessage)) :
    Owned (pgsqlCheckStatus m pgres rs).1 [] ∧
      (pgsqlCheckStatus m pgres rs).2.2.counter ≠ .read := by
  have hread := (hm.read (.inr hlost)).read (.inr hlost)
  unfold pgsqlCheckStatus
  simp only [hstatus]
  split
  · exact ⟨hread.crash hlost, nofun⟩
  · rename_i sqlState hsome
    rw [if_pos (by simpa [hsome] using hfields)]
    exact ⟨(hread.read (.inr hlost)).crash hlost, nofun⟩

/-- Any other status: the result is neither cleared nor kept. -/
theorem checked_other (hm : Owned m []) (hlost : pgres.handle ∈ lost m.replies)
    (hclears : ¬Clears .query pgres.reply) :
    Owned (pgsqlCheckStatus m pgres rs).1 [] ∧
      (pgsqlCheckStatus m pgres rs).2.2.counter ≠ .read := by
  have hread := hm.read (.inr hlost)
  cases hcase : pgres.reply.status with
  | tuplesOk => exact absurd (.inl hcase) hclears
  | commandOk => exact absurd (.inr (.inl hcase)) hclears
  | fatalError =>
    exact checked_crash hm hlost hcase fun hfields => hclears (.inr (.inr ⟨hcase, hfields⟩))
  | _ =>
    unfold pgsqlCheckStatus
    simp only [hcase]
    exact ⟨hread, nofun⟩

/-- Without rows, `rs->ptr` is NULL in the end. -/
theorem Handed.no_rows {origin : Origin}
    (hchecked : Owned (pgsqlCheckStatus (m.obtain origin).1 (m.obtain origin).2 rs).1 [] ∧
      (pgsqlCheckStatus (m.obtain origin).1 (m.obtain origin).2 rs).2.2.counter ≠ .read) :
    Handed (send origin m rs) := by
  obtain ⟨howned, hcounter⟩ := hchecked
  have hptr : (send origin m rs).2.2.ptr = none := if_neg hcounter
  refine ⟨?_, ?_⟩
  · rw [hptr]
    exact howned
  · rw [hptr]
    exact iff_of_false (fun hc => hc rfl) fun hc => hcounter hc.2

theorem handed_send {origin : Origin}
    (horigin : ∀ r, Clears origin r ↔ Clears .query r) (hm : Owned m []) :
    Handed (send origin m rs) := by
  by_cases hclears : Clears origin m.reply
  · have hobtained := hm.obtain_held origin hclears
    rcases (horigin _).mp hclears with hstatus | hstatus | ⟨hstatus, hstate, hmessage⟩
    · obtain ⟨howned, hrc, hcounter⟩ := checked_tuples rs hobtained hstatus
      have hptr : (send origin m rs).2.2.ptr = some (m.obtain origin).2 := if_pos hcounter
      refine ⟨?_, ?_⟩
      · rw [hptr]
        exact howned
      · rw [hptr]
        exact iff_of_true nofun ⟨hrc, hcounter⟩
    · exact Handed.no_rows (checked_command hobtained hstatus)
    · exact Handed.no_rows (checked_fatal hobtained hstatus hstate hmessage)
  · obtain ⟨hobtained, hlost⟩ := hm.obtain_lost origin hclears
    exact Handed.no_rows (checked_other hobtained hlost fun hc => hclears ((horigin _).mpr hc))

theorem handed_query (hm : Owned m []) : Handed (pgsqlDrvQuery m rs) :=
  handed_send (fun _ => Iff.rfl) hm

variable {d : PgsqlStmt}

theorem handed_execute (hm : Owned m []) (hrs : rs.ptr = none) :
    Handed (pgsqlDrvExecute m d rs) := by
  unfold pgsqlDrvExecute
  split
  · exact handed_query hm
  · split
    · refine ⟨?_, ?_⟩
      · rw [hrs]
        exact hm
      · exact iff_of_false (fun hc => hc hrs) fun hc => nomatch hc.1
    · exact handed_send (fun _ => Iff.rfl) hm

variable {rc : ℤ}

theorem owned_prepare {usePs : Bool} {query : Bytes} (hm : Owned m held)
    (h : pgsqlDrvPrepare usePs m query = (m', rc, d)) : Owned m' held := by
  have howned : Owned (pgsqlDrvPrepare usePs m query).1 held := by
    unfold pgsqlDrvPrepare
    split
    · dsimp only
      split
      · have hcleared := (hm.obtain_held .prepare trivial).read_head.pqClear
        split <;> exact hcleared
      · exact hm
    · exact hm
  rw [h] at howned
  exact howned

theorem owned_bindParam {d' : PgsqlStmt} {len : ℕ} (hm : Owned m held)
    (h : pgsqlDrvBindParam m d len = (m', rc, d')) : Owned m' held := by
  have howned : Owned (pgsqlDrvBindParam m d len).1 held := by
    unfold pgsqlDrvBindParam
    split
    · exact hm
    · split
      · exact hm
      · split
        · exact hm
        · split
          · exact hm
          · dsimp only
            split
            · rename_i hstatus
              obtain ⟨hobtained, hlost⟩ := hm.obtain_lost .bindParam hstatus
              exact hobtained.read (.inr hlost)
            · rename_i hstatus
              exact (hm.obtain_held .bindParam (not_not.mp hstatus)).read_head.pqClear
  rw [h] at howned
  exact howned

theorem owned_readFields (hmem : pgres.handle ∈ held) (values : List (Option Bytes)) :
    ∀ {m : State}, Owned m held → Owned (values.foldl (readField (some pgres)) m) held := by
  induction values with
  | nil => exact fun hm => hm
  | cons value values ih =>
    intro m hm
    refine ih ?_
    have hread {m : State} (hm : Owned m held) : Owned (m.read (some pgres)) held :=
      hm.read (.inl hmem)
    cases value with
    | none => exact hread hm
    | some _ => exact hread (hread (hread hm))

theorem owned_fetchRow (hm : Owned m (heldBy rs.ptr)) (hptr : rs.ptr ≠ none)
    {values : List (Option Bytes)} (h : pgsqlDrvFetchRow m rs = some (m', rc, values)) :
    Owned m' (heldBy rs.ptr) := by
  obtain ⟨pgres, hpgres⟩ := Option.ne_none_iff_exists'.mp hptr
  unfold pgsqlDrvFetchRow at h
  split at h
  · cases h
    exact hm
  · cases h
    rw [hpgres] at hm ⊢
    exact (owned_readFields mem_cons_self _ hm).same rfl rfl rfl

theorem owned_freeResults (hm : Owned m (heldBy rs.ptr)) :
    Owned (pgsqlDrvFreeResults m rs).1 [] ∧ (pgsqlDrvFreeResults m rs).2.2.ptr = none := by
  unfold pgsqlDrvFreeResults
  cases hptr : rs.ptr with
  | none =>
    rw [hptr] at hm
    exact ⟨hm, hptr⟩
  | some pgres =>
    rw [hptr] at hm
    have hcleared : Owned (m.pqClear (some pgres)) [] := Owned.pqClear hm
    exact ⟨hcleared.same rfl rfl rfl, rfl⟩

/-! ### Connections -/

/-- The result that is held is in `rs->ptr`, and one is held exactly while there is a result
set. -/
structure Keeps (w : World State PgsqlStmt Pgres) : Prop where
  owned : Owned w.drv (heldBy w.con.rs.ptr)
  result : w.con.rs.ptr ≠ none ↔ w.con.state = .resultSet

variable {w w' : World State PgsqlStmt Pgres} {usePs : Bool}

theorem Keeps.idle (hw : Keeps w) (hstate : w.con.state ≠ .resultSet) :
    w.con.rs.ptr = none ∧ Owned w.drv [] := by
  have hptr : w.con.rs.ptr = none := not_not.mp fun hc => hstate (hw.result.mp hc)
  have howned := hw.owned
  rw [hptr] at howned
  exact ⟨hptr, howned⟩

theorem Keeps.ready (hw : Keeps w) (hstate : w.con.state = .ready) :
    w.con.rs.ptr = none ∧ Owned w.drv [] :=
  hw.idle fun hc => nomatch hstate.symm.trans hc

theorem Keeps.same (hw : Keeps w) (hdrv : Owned w.drv (heldBy w.con.rs.ptr) →
    Owned w'.drv (heldBy w.con.rs.ptr)) (hrs : w'.con.rs.toRsData = w.con.rs.toRsData)
    (hstate : w'.con.state = w.con.state) : Keeps w' := by
  have hptr : w'.con.rs.ptr = w.con.rs.ptr := congrArg RsData.ptr hrs
  refine ⟨?_, ?_⟩
  · rw [hptr]
    exact hdrv hw.owned
  · rw [hptr, hstate]
    exact hw.result

/-- The layer takes over what the driver handed out. -/
theorem Keeps.answered {answer : State × DbError × RsData Pgres} (ha : Handed answer)
    (hstate : w.con.state = .ready) : Keeps (w.answered answer).1 := by
  unfold World.answered
  dsimp only
  split
  · rename_i herror
    split
    · rename_i hread
      exact ⟨ha.owned, iff_of_true (ha.result.mpr ⟨herror, hread⟩) rfl⟩
    · rename_i hread
      refine ⟨ha.owned, iff_of_false (fun hc => hread (ha.result.mp hc).2) ?_⟩
      exact nofun
  · rename_i herror
    refine ⟨ha.owned, iff_of_false (fun hc => herror (ha.result.mp hc).1) fun hc => ?_⟩
    cases hstate.symm.trans hc

/-- The connection ends, or is made again, with no result held. -/
theorem Keeps.session (hw : Keeps w) (hstate : w.con.state = .ready)
    (hdrv : Owned w.drv [] → Owned w'.drv []) (hrs : w'.con.rs = w.con.rs)
    (hstate' : w'.con.state ≠ .resultSet) : Keeps w' := by
  obtain ⟨hptr, howned⟩ := hw.ready hstate
  refine ⟨?_, ?_⟩
  · rw [hrs, hptr]
    exact hdrv howned
  · rw [hrs]
    exact iff_of_false (fun hc => hc hptr) hstate'

theorem owned_reconnect (hm : Owned m held) : Owned (pgsqlDrvReconnect m).1 held := by
  unfold pgsqlDrvReconnect
  split <;> exact hm.same rfl rfl rfl

theorem pgsqlDrvClose_state (m : State) (d : PgsqlStmt) : (pgsqlDrvClose m d).1 = m := by
  unfold pgsqlDrvClose
  split <;> rfl

theorem keeps_free {data : RsData Pgres} (hw : Keeps w)
    (h : pgsqlDrvFreeResults w.drv w.con.rs.toRsData = (m, rc, data)) :
    Keeps (w.freedResults m data) := by
  have hfreed := owned_freeResults hw.owned
  rw [h] at hfreed
  obtain ⟨howned, hptr⟩ := hfreed
  have hnone : (w.freedResults m data).con.rs.ptr = none := hptr
  refine ⟨?_, iff_of_false (fun hc => hc hnone) nofun⟩
  rw [hnone]
  exact howned

theorem keeps_effect {strict : Prop} (hw : Keeps w) (h : Effect (pgsqlDriver usePs) strict w w') :
    Keeps w' := by
  cases h with
  | free hstate hfree => exact keeps_free hw (Option.some.inj hfree)
  | error e | statement hstate hs => exact hw.same (fun hm => hm) rfl rfl
  | execute hstate hs =>
    obtain ⟨hptr, howned⟩ := hw.ready hstate
    exact Keeps.answered (handed_execute howned hptr) hstate
  | stmtNextResult hstate hs hop | nextResult hstate hclean hop | moreResults hstate hop =>
    cases hop
  | query hstate hclean => exact Keeps.answered (handed_query (hw.ready hstate).2) hstate
  | fetchRow hstate hop hrow =>
    cases hop
    have hptr := hw.result.mpr hstate
    exact hw.same (fun hm => owned_fetchRow hm hptr hrow) rfl rfl
  | prepareFailed hstate hp hrc | prepared hstate hp =>
    exact hw.same (fun hm => owned_prepare hm hp) rfl rfl
  | bindParam hstate hs hb => exact hw.same (fun hm => owned_bindParam hm hb) rfl rfl
  | bindResult hstate hs hb =>
    cases hb
    exact hw.same (fun hm => hm) rfl rfl
  | close hstate hs hclean =>
    refine hw.same (fun hm => ?_) rfl rfl
    show Owned (pgsqlDrvClose w.drv _).1 _
    rw [pgsqlDrvClose_state]
    exact hm
  | disconnect hstate => exact hw.session hstate (fun hm => hm) rfl nofun
  | reconnect hstate hop hs =>
    cases hop
    exact hw.session hstate owned_reconnect rfl hs

theorem keeps_book {bulk : Prop} (hw : Keeps w) (h : Bookkeeping bulk w w') : Keeps w' := by
  cases h with
  | bulk | describe hstate | dealloc => exact hw.same (fun hm => hm) rfl rfl

variable {server : ℕ → Reply}

theorem keeps_create (h : dbConnectionCreate (pgsqlDriver usePs) (State.init server) = some w) :
    Keeps w := by
  have hconnect : Owned (pgsqlDrvConnect (State.init server)).1 [] := by
    unfold pgsqlDrvConnect
    split <;> exact (owned_init server).same rfl rfl rfl
  obtain rfl := dbConnectionCreate_some h
  exact ⟨hconnect, iff_of_false (fun hc => hc rfl) nofun⟩

/-! ### Runs -/

variable {w₀ : World State PgsqlStmt Pgres}

theorem keeps_run (hcreate : dbConnectionCreate (pgsqlDriver usePs) (State.init server) = some w₀)
    (hrun : Reach (dbStep (pgsqlDriver usePs)) (fun _ _ => True) w₀ w) : Keeps w := by
  refine hrun.invariant (keeps_create hcreate) fun hw _ h => ?_
  exact (dbStep_effects False (fun hc => hc.elim) h).invariant keeps_effect keeps_book hw

/-- Every result that was handed out has been cleared exactly once, and was not looked at
afterwards. -/
def ReleasedOnce (calls : List (HandleCall Unit)) : Prop :=
  Ledger.Disciplined calls ∧ ∀ h, .obtain h ∈ calls → Ledger.releases h calls = 1

/-- **Results are released once exactly if none is lost.**  When the connection is closed, after
any calls, each result has been cleared exactly once, without a crash, if and only if each one
that was obtained for a query or an execution had rows, was the end of a command or was an error
with its fields, and each `PQprepare` of `bind_param` succeeded. -/
theorem results_released_iff {server : ℕ → Reply} {w₀ : World State PgsqlStmt Pgres}
    (hcreate : dbConnectionCreate (pgsqlDriver usePs) (State.init server) = some w₀)
    (hrun : Reach (dbStep (pgsqlDriver usePs)) (fun _ _ => True) w₀ w)
    (hclosed : w.con.state = .invalid) :
    w.drv.crashed = false ∧ ReleasedOnce w.drv.ledger.calls ↔
      ∀ r ∈ w.drv.replies, Clears r.1 r.2 := by
  have hkeeps := keeps_run hcreate hrun
  obtain ⟨-, howned⟩ := hkeeps.idle fun hc => nomatch hclosed.symm.trans hc
  have howns : w.drv.ledger.Owns (lost w.drv.replies) := howned.owns
  constructor
  · rintro ⟨-, -, honce⟩ r hr
    by_contra hclears
    -- a lost result is still out, so it has not been cleared
    obtain ⟨n, hn⟩ := List.getElem?_of_mem hr
    have hlost : ((), n) ∈ lost w.drv.replies := mem_lost.mpr ⟨r, hn, hclears⟩
    have hobtained := ((howns.mem_iff _).mp hlost).1
    have hcount := howns.once _ hobtained
    rw [if_pos hlost, honce _ hobtained] at hcount
    exact nomatch hcount
  · intro hclears
    have hlost : ∀ h, h ∉ lost w.drv.replies := by
      intro h hmem
      obtain ⟨r, hr, hnot⟩ := mem_lost.mp hmem
      exact hnot (hclears r (mem_of_getElem? hr))
    refine ⟨Bool.eq_false_iff.mpr fun hc => ?_, howns.disciplined, fun h hobtained => ?_⟩
    · exact howned.crashed hc (eq_nil_iff_forall_not_mem.mpr hlost)
    · rw [howns.once h hobtained, if_neg (hlost h)]

/-- A result with one row. -/
def oneRow : PgResult where
  nfields := 1
  rows := [[some [49]]]
  width := by decide
  ntuples_lt := by decide
  nfields_lt := by decide

/-- A server that takes connections and answers everything else alike. -/
def serverWith (status : ExecStatusType) : ℕ → Reply := fun _ =>
  { connected := true, status := status, tuples := oneRow, cmdTuples := 0, sqlState := none
    hasMessage := false }

/-- A query with a row, which is fetched, and the end of the connection. -/
theorem fetched_row_is_released :
    ∃ w₀ w rets,
      dbConnectionCreate (pgsqlDriver true) (State.init (serverWith .tuplesOk)) = some w₀ ∧
      trace (dbStep (pgsqlDriver true)) w₀ [.query [49] 1, .fetchRow, .connectionClose]
        = .ok (w, rets) ∧
      w.con.state = .invalid ∧ w.drv.crashed = false ∧ ReleasedOnce w.drv.ledger.calls := by
  obtain ⟨w₀, w₁, w₂, w₃, r₁, r₂, r₃, hcreate, h₁, h₂, h₃, hclosed, hreplies⟩ :
      ∃ w₀ w₁ w₂ w₃ r₁ r₂ r₃,
        dbConnectionCreate (pgsqlDriver true) (State.init (serverWith .tuplesOk)) = some w₀ ∧
        dbStep (pgsqlDriver true) w₀ (.query [49] 1) = .ok (w₁, r₁) ∧
        dbStep (pgsqlDriver true) w₁ .fetchRow = .ok (w₂, r₂) ∧
        dbStep (pgsqlDriver true) w₂ .connectionClose = .ok (w₃, r₃) ∧
        w₃.con.state = .invalid ∧ w₃.drv.replies = [(.query, serverWith .tuplesOk 1)] :=
    ⟨_, _, _, _, _, _, _, rfl, rfl, rfl, rfl, rfl, rfl⟩
  have htrace : trace (dbStep (pgsqlDriver true)) w₀ [.query [49] 1, .fetchRow, .connectionClose]
      = .ok (w₃, [r₁, r₂, r₃]) := trace_cons h₁ (trace_cons h₂ (trace_cons h₃ rfl))
  have hrun : Reach (dbStep (pgsqlDriver true)) (fun _ _ => True) w₀ w₃ :=
    ((Reach.refl.next trivial h₁).next trivial h₂).next trivial h₃
  refine ⟨w₀, w₃, [r₁, r₂, r₃], hcreate, htrace, hclosed, ?_⟩
  refine (results_released_iff hcreate hrun hclosed).mpr ?_
  rw [hreplies]
  decide

/-- An empty query, and a `bind_param` whose `PQprepare` fails: each leaves a result that is
never cleared.  A query that fails without a SQLSTATE is the end of the process. -/
theorem empty_query_and_failed_bind_leak :
    (∃ w₀ w rets,
      dbConnectionCreate (pgsqlDriver true) (State.init (serverWith .emptyQuery)) = some w₀ ∧
      trace (dbStep (pgsqlDriver true)) w₀ [.query [] 0, .connectionClose] = .ok (w, rets) ∧
      .obtain ((), 0) ∈ w.drv.ledger.calls ∧ Ledger.releases ((), 0) w.drv.ledger.calls = 0) ∧
    (∃ w₀ w rets,
      dbConnectionCreate (pgsqlDriver true) (State.init (serverWith .fatalError)) = some w₀ ∧
      trace (dbStep (pgsqlDriver true)) w₀ [.prepare [63], .bindParam 0 1, .connectionClose]
        = .ok (w, rets) ∧
      .obtain ((), 0) ∈ w.drv.ledger.calls ∧ Ledger.releases ((), 0) w.drv.ledger.calls = 0) ∧
    ∃ w₀ w ret,
      dbConnectionCreate (pgsqlDriver true) (State.init (serverWith .fatalError)) = some w₀ ∧
      dbStep (pgsqlDriver true) w₀ (.query [49] 1) = .ok (w, ret) ∧ w.drv.crashed = true :=
  ⟨⟨_, _, _, rfl, rfl, by decide, by decide⟩, ⟨_, _, _, rfl, rfl, by decide, by decide⟩,
    ⟨_, _, _, rfl, rfl, rfl⟩⟩

end Sysbench.PgResults
