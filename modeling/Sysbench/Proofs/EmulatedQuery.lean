/-
When emulation is safe.

Both drivers write the text of an emulated statement with the same loop and look neither at
the number of the bound parameters nor at an empty query.  So a query is built exactly if it
is not empty, has a parameter for each `?`, and neither the query nor its text is too long for
the counters; the buffer is otherwise always large enough.
-/
import Sysbench.Proofs.QueryBuffer

namespace Sysbench.QueryBuffer

open CMemory Machine Sysbench.Bind

variable {alloc : ℕ → Bool} {heap : ℕ → UInt8} {loop : Loop} {query : Bytes} {s : State}

/-- The loop ends, and without a fault, whatever the allocator does. -/
def Safe (loop : Loop) (query : Bytes) : Prop :=
  ∀ alloc heap, ∃ o, Halts (step alloc heap loop query) (start 0) o ∧ ∀ f, o ≠ .fault f

/-! ### Queries that are too long -/

/-- A round at a byte of the query does not come to the end, and moves on by one at most. -/
theorem step_at (alloc : ℕ → Bool) (heap : ℕ → UInt8) (loop : Loop) {c : UInt8}
    (hat : query[s.i]? = some c) :
    (∃ o, step alloc heap loop query s = .inr o ∧
        ((∃ f, o = .fault f) ∨ o = .noMemory ∧ ∃ n, alloc n = false)) ∨
      ∃ s', step alloc heap loop query s = .inl s' ∧ (s'.i = s.i ∨ s'.i = (s.i + 1) % 2 ^ 32) := by
  simp only [step, hat]
  cases hres : reserve alloc heap s with
  | none =>
    refine .inl ⟨_, rfl, .inr ⟨rfl, nextLen s.buflen, ?_⟩⟩
    unfold reserve at hres
    split at hres
    · split at hres
      · cases hres
      · rename_i hfail
        simpa using hfail
    · cases hres
  | some r =>
    have hi : r.i = s.i := by
      unfold reserve at hres
      split at hres
      · split at hres
        · cases hres
          rfl
        · cases hres
      · cases hres
        rfl
    simp only [← hi]
    by_cases hc : c = 63
    · rw [if_neg (by simp [hc])]
      unfold putPiece
      split
      · exact .inl ⟨_, rfl, .inl ⟨_, rfl⟩⟩
      · exact .inl ⟨_, rfl, .inl ⟨_, rfl⟩⟩
      · split
        · exact .inl ⟨_, rfl, .inl ⟨_, rfl⟩⟩
        · exact .inr ⟨_, rfl, .inl rfl⟩
        · exact .inr ⟨_, rfl, .inr rfl⟩
    · rw [if_pos hc]
      unfold putByte
      split
      · exact .inl ⟨_, rfl, .inl ⟨_, rfl⟩⟩
      · split
        · exact .inl ⟨_, rfl, .inl ⟨_, rfl⟩⟩
        · exact .inr ⟨_, rfl, .inr rfl⟩

/-- The index wraps around before it comes to the end of a query this long. -/
theorem not_built_of_long (hlong : 2 ^ 32 ≤ query.length) (hs : s.i < 2 ^ 32) {o : Outcome}
    (h : Halts (step alloc heap loop query) s o) :
    (∃ f, o = .fault f) ∨ o = .noMemory ∧ ∃ n, alloc n = false := by
  have hat : ∀ s : State, s.i < 2 ^ 32 → ∃ c, query[s.i]? = some c := fun s hs =>
    ⟨_, List.getElem?_eq_getElem (hs.trans_le hlong)⟩
  refine Halts.outcome (P := fun s => s.i < 2 ^ 32)
    (Q := fun o => (∃ f, o = .fault f) ∨ o = .noMemory ∧ ∃ n, alloc n = false) ?_ ?_ hs h
  · intro s s' hs hstep
    obtain ⟨c, hc⟩ := hat s hs
    rcases step_at alloc heap loop hc with ⟨o, ho, -⟩ | ⟨r, hr, hi⟩
    · cases ho.symm.trans hstep
    · cases hr.symm.trans hstep
      rcases hi with hi | hi
      · rw [hi]
        exact hs
      · rw [hi]
        exact Nat.mod_lt _ (by decide)
  · intro s o hs hstep
    obtain ⟨c, hc⟩ := hat s hs
    rcases step_at alloc heap loop hc with ⟨o', ho, hbad⟩ | ⟨r, hr, -⟩
    · cases ho.symm.trans hstep
      exact hbad
    · cases hr.symm.trans hstep

/-! ### Safety of a loop -/

theorem finish_empty : step alloc heap loop [] (start 0) = .inr (.fault .nullBuffer) := rfl

theorem Safe.not_bad (h : Safe loop query)
    (hbad : ∀ o, Halts (step (fun _ => true) (fun _ => 0) loop query) (start 0) o →
      (∃ f, o = .fault f) ∨ o = .noMemory ∧ ∃ n : ℕ, (fun _ => true) n = false) : False := by
  obtain ⟨o, hhalts, hsafe⟩ := h (fun _ => true) (fun _ => 0)
  rcases hbad o hhalts with ⟨f, hf⟩ | ⟨-, n, hn⟩
  · exact hsafe f hf
  · cases hn

theorem safe_iff_fits (hsizes : SizeOk loop.size) :
    Safe loop query ↔ query ≠ [] ∧ query.length < 2 ^ 32 ∧ Fits loop query 0 0 := by
  constructor
  · intro hsafe
    have hquery : query ≠ [] := by
      rintro rfl
      refine hsafe.not_bad fun o hhalts => .inl ?_
      refine Halts.outcome (P := fun s => s = start 0) (Q := fun o => ∃ f, o = .fault f) ?_ ?_ rfl
        hhalts
      · rintro s s' rfl hstep
        cases finish_empty.symm.trans hstep
      · rintro s o rfl hstep
        cases finish_empty.symm.trans hstep
        exact ⟨_, rfl⟩
    have hshort : query.length < 2 ^ 32 := by
      by_contra hlong
      exact hsafe.not_bad fun o hhalts =>
        not_built_of_long (Nat.not_lt.mp hlong) (show 0 < 2 ^ 32 by decide) hhalts
    refine ⟨hquery, hshort, ?_⟩
    by_contra hnot
    have hbase := base_start loop hquery (show 0 + query.length < 2 ^ 32 by omega)
    exact hsafe.not_bad fun o hhalts => not_built_of_not_fits hsizes hshort hbase hnot hhalts
  · rintro ⟨hquery, hshort, hfits⟩ alloc heap
    obtain ⟨o, hhalts, hends⟩ := halts_of_fits alloc heap hsizes hquery
      (show 0 + query.length < 2 ^ 32 by omega) hfits
    refine ⟨o, hhalts, fun f hf => ?_⟩
    subst hf
    cases hends

/-! ### Parameters and sizes -/

/-- Each item finds the room that it needs, as far as it is there at all. -/
def SizesFit (loop : Loop) : Bytes → ℕ → ℕ → Prop
  | [], _, _ => True
  | c :: query, vcnt, j =>
    (if c ≠ 63 then j + 1 < 2 ^ 31 else ∀ piece, loop.piece vcnt = some piece → piece.Fits j) ∧
      SizesFit loop query (nextVcnt c vcnt) (j + (itemText loop c vcnt).length)

/-- Two things are asked of the placeholders: that there are parameters, and that they fit. -/
theorem fits_iff_params_sizes (query : Bytes) :
    ∀ {vcnt j : ℕ}, Fits loop query vcnt j ↔
      (∀ k < query.count 63, (loop.piece (vcnt + k)).isSome = true) ∧
        SizesFit loop query vcnt j := by
  induction query with
  | nil =>
    simp [Fits, SizesFit]
  | cons c query ih =>
    intro vcnt j
    rw [Fits, SizesFit, ih]
    by_cases hc : c = 63
    · subst hc
      have hnext : nextVcnt 63 vcnt = vcnt + 1 := if_neg (by simp)
      have hitem : ItemFits loop 63 vcnt j ↔ (loop.piece vcnt).isSome = true ∧
          ∀ piece, loop.piece vcnt = some piece → piece.Fits j := by
        rw [ItemFits]
        cases loop.piece vcnt with
        | none => simp
        | some piece => simp
      rw [List.count_cons_self, hnext, hitem]
      constructor
      · rintro ⟨⟨hsome, hsize⟩, hall, hrest⟩
        refine ⟨fun k hk => ?_, hsize, hrest⟩
        cases k with
        | zero => exact hsome
        | succ k =>
          have hlater := hall k (by omega)
          rwa [Nat.add_assoc, Nat.add_comm 1 k] at hlater
      · rintro ⟨hall, hsize, hrest⟩
        refine ⟨⟨hall 0 (Nat.succ_pos _), hsize⟩, fun k hk => ?_, hrest⟩
        have hlater := hall (k + 1) (by omega)
        rwa [Nat.add_assoc, Nat.add_comm 1 k]
    · have hnext : nextVcnt c vcnt = vcnt := if_pos hc
      rw [List.count_cons_of_ne hc, hnext, itemFits_byte hc, if_pos hc]
      constructor
      · rintro ⟨hbyte, hall, hrest⟩
        exact ⟨hall, hbyte, hrest⟩
      · rintro ⟨hall, hbyte, hrest⟩
        exact ⟨hbyte, hall, hrest⟩

theorem sizesFit_of_short (query : Bytes) :
    ∀ {vcnt j : ℕ}, j + (expand loop query vcnt).length < 2 ^ 30 → SizesFit loop query vcnt j := by
  induction query with
  | nil =>
    intro vcnt j _
    trivial
  | cons c query ih =>
    intro vcnt j hshort
    rw [expand, List.length_append] at hshort
    refine ⟨?_, ih (by omega)⟩
    by_cases hc : c = 63
    · subst hc
      intro piece hpiece
      cases piece with
      | nothing => trivial
      | text bs =>
        rw [itemText_text hpiece] at hshort
        exact ⟨by omega, fun _ => by omega⟩
    · rw [if_pos hc]
      omega

/-! ### Statements -/

/-- What calls of `bind_param` make of a statement, the refused ones included. -/
inductive Reached (query : Bytes) : EmulatedStmt → Prop
  | prepared : Reached query (prepareEmulated query)
  | called {stmt : EmulatedStmt} (h : Reached query stmt) (malloc : Bool) (params : List DbBind) :
      Reached query (bindParamEmulated malloc stmt params).1

/-- A statement that has been given no parameters, or whose last ones have been accepted. -/
def Accepted (query : Bytes) (stmt : EmulatedStmt) : Prop :=
  stmt = prepareEmulated query ∨ ∃ before malloc params, Reached query before ∧
    bindParamEmulated malloc before params = (stmt, 0)

variable {stmt : EmulatedStmt}

theorem Reached.query_eq (h : Reached query stmt) : stmt.query = cstr query := by
  induction h with
  | prepared => rfl
  | called h malloc params ih =>
    unfold bindParamEmulated
    split
    · exact ih
    · exact ih

theorem Accepted.query_eq (h : Accepted query stmt) : stmt.query = cstr query := by
  rcases h with rfl | ⟨before, malloc, params, hbefore, hbind⟩
  · rfl
  · have hcalled := (hbefore.called malloc params).query_eq
    rwa [hbind] at hcalled

/-- `bound_param` has as many entries as `bound_param_len` says. -/
theorem Accepted.length_eq (h : Accepted query stmt) :
    (stmt.boundParam.getD []).length = stmt.boundParamLen := by
  rcases h with rfl | ⟨before, malloc, params, -, hbind⟩
  · rfl
  · unfold bindParamEmulated at hbind
    split at hbind
    · cases hbind
      rfl
    · cases hbind

theorem sizeOk_sizeOfInt : SizeOk sizeOfInt where
  eq := fun r hr => if_pos hr
  le := fun r hr => by
    rw [sizeOfInt, if_neg (by omega)]
    omega

theorem emulation_piece_isSome_iff (P : Printing) (bound : Option (List DbBind)) (count : ℕ) :
    (∀ k < count, ((emulation P bound).piece (0 + k)).isSome = true)
      ↔ count ≤ (bound.getD []).length := by
  have hpiece : ∀ k, ((emulation P bound).piece (0 + k)).isSome = true
      ↔ k < (bound.getD []).length := by
    simp [emulation]
  simp only [hpiece]
  refine ⟨fun h => ?_, fun h k hk => hk.trans_le h⟩
  by_contra hlt
  exact Nat.lt_irrefl _ (h _ (Nat.not_le.mp hlt))

theorem emulation_safe_iff_fits (P : Printing) (h : Accepted query stmt) :
    Safe (emulation P stmt.boundParam) stmt.query ↔
      cstr query ≠ [] ∧ (cstr query).length < 2 ^ 32 ∧ (cstr query).count 63 ≤ stmt.boundParamLen ∧
        SizesFit (emulation P stmt.boundParam) (cstr query) 0 0 := by
  rw [h.query_eq, safe_iff_fits sizeOk_sizeOfInt, fits_iff_params_sizes, emulation_piece_isSome_iff,
    h.length_eq]

/-- **The query-building loops of both drivers are safe exactly if** the query is not empty, there
is a parameter for each placeholder, and neither the query nor its text is too long. -/
theorem emulated_execute_safe_iff (P : Printing) {query : Bytes} {stmt : EmulatedStmt}
    (h : Accepted query stmt) :
    Safe (mysqlDrvExecute P stmt) stmt.query ∧ Safe (pgsqlDrvExecute P stmt) stmt.query ↔
      cstr query ≠ [] ∧ (cstr query).length < 2 ^ 32 ∧ (cstr query).count 63 ≤ stmt.boundParamLen ∧
        SizesFit (emulation P stmt.boundParam) (cstr query) 0 0 := by
  rw [← emulation_safe_iff_fits P h]
  exact ⟨fun hboth => hboth.1, fun hsafe => ⟨hsafe, hsafe⟩⟩

/-- What no integer needs. -/
def plainPrinting : Printing where
  float := fun _ => []
  double := fun _ => []
  behind := fun _ => []

/-- `a=?` with one integer. -/
def oneParam : EmulatedStmt :=
  (bindParamEmulated true (prepareEmulated [97, 61, 63])
    [{ buffer := .bigint 5, dataLen := 0, maxLen := 8, isNull := some false }]).1

theorem one_param_safe :
    Safe (mysqlDrvExecute plainPrinting oneParam) oneParam.query ∧
      Safe (pgsqlDrvExecute plainPrinting oneParam) oneParam.query := by
  have haccepted : Accepted [97, 61, 63] oneParam := .inr ⟨_, true, _, .prepared, rfl⟩
  refine (emulated_execute_safe_iff plainPrinting haccepted).mpr
    ⟨by decide, by decide, by decide, sizesFit_of_short _ ?_⟩
  decide +kernel

/-- An empty query is terminated through NULL, and a placeholder without a parameter is looked
for behind the array, or through NULL where nothing has been bound. -/
theorem emulation_faults :
    Halts (step (fun _ => true) (fun _ => 0)
        (mysqlDrvExecute plainPrinting (prepareEmulated [])) (prepareEmulated []).query)
      (start 0) (.fault .nullBuffer) ∧
    Halts (step (fun _ => true) (fun _ => 0)
        (pgsqlDrvExecute plainPrinting (prepareEmulated [])) (prepareEmulated []).query)
      (start 0) (.fault .nullBuffer) ∧
    Halts (step (fun _ => true) (fun _ => 0)
        (mysqlDrvExecute plainPrinting (prepareEmulated [63])) (prepareEmulated [63]).query)
      (start 0) (.fault .noParam) ∧
    Halts (step (fun _ => true) (fun _ => 0)
        (pgsqlDrvExecute plainPrinting (prepareEmulated [63])) (prepareEmulated [63]).query)
      (start 0) (.fault .noParam) :=
  ⟨⟨1, rfl⟩, ⟨1, rfl⟩, ⟨1, rfl⟩, ⟨1, rfl⟩⟩

end Sysbench.QueryBuffer
