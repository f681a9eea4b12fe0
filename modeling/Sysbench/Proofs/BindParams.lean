/-
When emulated and server-side statements send the same values.

The emulation puts the text of the k-th parameter in the place of the k-th `?`, however often
its buffer has to grow for that.  The text of an integer denotes the integer.  The text of a
string is the C string in its buffer between quotes, and denotes what the server-side
statement sends if the string ends where `data_len` says and is plain.  `Clean` says so of a
parameter; `StepOk` are the calls that leave every parameter clean.
-/
import Sysbench.Lib.Runs
import Sysbench.Proofs.EmulatedQuery

namespace Sysbench.Bind

open List CMemory Machine Runs SqlLiteral QueryBuffer

/-! ### The text of an emulated query -/

/-- A query with each `?` replaced. -/
def substitute : Bytes → List Bytes → Bytes
  | [], _ => []
  | c :: query, texts =>
    if c = 63 then texts.headD [] ++ substitute query texts.tail
    else c :: substitute query texts

variable {P : Printing} {var : DbBind}

/-- The text of a parameter, where it has one. -/
def textOf (P : Printing) (var : DbBind) : Bytes :=
  match printedValue P var with
  | .text bs => bs
  | .nothing => []

/-- The loop replaces each `?` by the text of the next parameter. -/
theorem expand_emulation (bound : List DbBind) (query : Bytes) :
    ∀ vcnt, expand (emulation P (some bound)) query vcnt
      = substitute query ((bound.drop vcnt).map (textOf P)) := by
  induction query with
  | nil => exact fun vcnt => rfl
  | cons c query ih =>
    intro vcnt
    rw [expand, substitute, ih]
    by_cases hc : c = 63
    · have hitem : itemText (emulation P (some bound)) 63 vcnt
          = ((bound.drop vcnt).map (textOf P)).headD [] := by
        have hpiece : (emulation P (some bound)).piece vcnt = bound[vcnt]?.map (printedValue P) :=
          rfl
        rw [headD_eq_head?_getD, head?_map, head?_drop, itemText, if_neg (by decide), hpiece]
        cases bound[vcnt]? with
        | none => rfl
        | some var =>
          rw [Option.map_some, Option.map_some, Option.getD_some, textOf]
          cases printedValue P var with
          | nothing | text bs => rfl
      subst hc
      rw [if_pos rfl, hitem, ← map_tail, tail_drop]
      rfl
    · rw [if_neg hc, itemText_byte hc, nextVcnt, if_pos hc]
      rfl

/-- The emulated statement sends the text: its loop builds it in the buffer, unless the allocator
fails. -/
def SendsText (P : Printing) (s : PsState) (stmt : PsStmt) (text : Bytes) : Prop :=
  ∀ alloc heap, (∀ n, 0 < n → alloc n = true) → ∃ buf vcnt,
    Halts (step alloc heap (emulation P (some (s.binds stmt.boundParam))) stmt.query) (start 0)
      (.built buf vcnt) ∧
    buf.take (text.length + 1) = text ++ [0]

variable {s s' : PsState} {stmt : PsStmt}

theorem sendsText_substitute (hquery : stmt.query ≠ [])
    (htexts : ∀ var ∈ s.binds stmt.boundParam, printedValue P var ≠ .nothing)
    (hcount : stmt.query.count 63 ≤ (s.binds stmt.boundParam).length)
    (hlen : stmt.query.length < 2 ^ 32)
    (hshort : (substitute stmt.query ((s.binds stmt.boundParam).map (textOf P))).length < 2 ^ 30) :
    SendsText P s stmt (substitute stmt.query ((s.binds stmt.boundParam).map (textOf P))) := by
  intro alloc heap halloc
  have hexpand := expand_emulation (P := P) (s.binds stmt.boundParam) stmt.query 0
  rw [drop_zero] at hexpand
  rw [← hexpand] at hshort ⊢
  have hfits : Fits (emulation P (some (s.binds stmt.boundParam))) stmt.query 0 0 :=
    fits_iff_params_sizes _ |>.mpr ⟨(emulation_piece_isSome_iff P _ _).mpr hcount,
      sizesFit_of_short _ (by omega)⟩
  obtain ⟨o, hhalts, hends⟩ := halts_of_fits alloc heap sizeOk_sizeOfInt hquery (by omega) hfits
  have hpieces : ∀ v, (emulation P (some (s.binds stmt.boundParam))).piece v ≠ some .nothing := by
    intro v hv
    obtain ⟨var, hvar, hnothing⟩ := Option.map_eq_some_iff.mp hv
    exact htexts var (mem_of_getElem? hvar) hnothing
  obtain ⟨buf, rfl, hbuf⟩ := hends.built_of_alloc halloc hpieces
  exact ⟨buf, _, hhalts, hbuf⟩

/-! ### The text of a value -/

/-- A string buffer holds a plain string of `n` bytes, and NUL behind it. -/
structure CleanString (mem : Bytes) (n : ℕ) : Prop where
  plain : Plain (mem.take n)
  noNul : 0 ∉ mem.take n
  ends : mem[n]? = some 0

/-- A parameter that `bind_create` has made, and whose buffer is clean if it is one for
strings. -/
structure Clean (var : DbBind) : Prop where
  created : var.buffer.type = .bigint ∨ var.buffer.type = .double ∨ var.buffer.type = .varchar
  string : ∀ mem, var.buffer = .varchar mem → CleanString mem var.dataLen

theorem clean_of_bigint {v : Int64} (h : var.buffer = .bigint v) : Clean var := by
  refine ⟨.inl (by rw [h]; rfl), fun mem hmem => ?_⟩
  cases h.symm.trans hmem

theorem clean_of_double {bits : UInt64} (h : var.buffer = .double bits) : Clean var := by
  refine ⟨.inr (.inl (by rw [h]; rfl)), fun mem hmem => ?_⟩
  cases h.symm.trans hmem

variable {mem : Bytes}

theorem clean_of_varchar (h : var.buffer = .varchar mem) (hmem : CleanString mem var.dataLen) :
    Clean var := by
  refine ⟨.inr (.inr (by rw [h]; rfl)), fun mem' hmem' => ?_⟩
  cases h.symm.trans hmem'
  exact hmem

/-- `%s` stops in the buffer. -/
theorem CleanString.cstr_append {n : ℕ} (h : CleanString mem n) (behind : Bytes) :
    cstr (mem ++ behind) = mem.take n := by
  have hlt : n < mem.length := (List.getElem?_eq_some_iff.mp h.ends).1
  refine cstr_of_take (n := n + 1) h.noNul ?_
  rw [take_append_of_le_length hlt, take_add_one, h.ends]
  rfl

theorem printedValue_ne_nothing (hclean : Clean var) : printedValue P var ≠ .nothing := by
  unfold printedValue
  split
  · nofun
  · intro h
    cases hbuffer : var.buffer with
    | none => simpa [hbuffer, BindBuffer.type] using hclean.created
    | _ =>
      rw [hbuffer] at h
      cases h

/-- The text of a clean integer or string denotes what the client library sends. -/
theorem text_denotes (hclean : Clean var)
    (htype : var.buffer.type = .bigint ∨ var.buffer.type = .varchar) :
    ∃ v, (convertToMysqlBind var).transmitted = some v ∧ value (textOf P var) = some v := by
  by_cases hnull : var.isNull = some true
  · refine ⟨.null, if_pos hnull, ?_⟩
    rw [textOf, printedValue, if_pos hnull]
    rfl
  · have hsent : ¬(convertToMysqlBind var).isNull = some true := hnull
    rw [textOf, printedValue, if_neg hnull, MysqlBind.transmitted, if_neg hsent]
    cases hbuffer : var.buffer with
    | bigint v =>
      refine ⟨.int v.toInt, ?_, value_signedDecimal v.toInt⟩
      rw [convertToMysqlBind, hbuffer]
      rfl
    | varchar mem =>
      have hmem := hclean.string mem hbuffer
      refine ⟨.bytes (mem.take var.dataLen), ?_, ?_⟩
      · rw [convertToMysqlBind, hbuffer]
        rfl
      · show value (quoted (cstr (mem ++ P.behind mem))) = _
        rw [hmem.cstr_append]
        exact (value_quoted_eq_iff _).mpr hmem.plain
    | _ => simp [hbuffer, BindBuffer.type] at htype

/-! ### Runs -/

/-- A string that is set is plain, ends before the buffer does, and not before the end of a
longer one that was there: the byte that will be behind it is NUL. -/
def SetOk (p : SqlParam) : LuaValue → Prop
  | .string bs => ∀ mem, p.buffer = .varchar mem → Plain bs ∧ 0 ∉ bs ∧ mem[bs.length]? = some 0
  | _ => True

/-- What keeps the two ways together.  The server has to take every `?` of the query, as the
driver sees it, for a placeholder; string buffers must not be empty; and as many parameters
have to be bound as there are placeholders. -/
def StepOk (s : PsState) : PsCall → Prop
  | .prepare query paramCount => paramCount = (cstr query).count 63
  | .bindCreate btype maxLen => btype = .char ∨ btype = .varchar → 0 < maxLen
  | .set k value => ∀ p, s.params[k]? = some p → SetOk p value
  | .bindParam k params => ∀ stmt, s.stmts[k]? = some stmt → params.length = stmt.paramCount
  | .execute _ => True

/-- A statement has bound the same existing parameters both ways, one for each `?`. -/
structure StmtSound (s : PsState) (stmt : PsStmt) : Prop where
  count : stmt.paramCount = stmt.query.count 63
  bound : ∀ refs, stmt.mysqlBind = some refs → stmt.boundParam = refs ∧ refs ≠ [] ∧
    refs.length = stmt.paramCount ∧ ∀ r ∈ refs, r < s.params.length

structure Sound (s : PsState) : Prop where
  params : ∀ p ∈ s.params, Clean p.toDbBind
  stmts : ∀ stmt ∈ s.stmts, StmtSound s stmt

theorem StmtSound.mono (h : StmtSound s stmt)
    (hparams : s.params.length ≤ s'.params.length) : StmtSound s' stmt := by
  refine ⟨h.count, fun refs hrefs => ?_⟩
  obtain ⟨hsame, hne, hlen, hvalid⟩ := h.bound refs hrefs
  exact ⟨hsame, hne, hlen, fun r hr => (hvalid r hr).trans_le hparams⟩

theorem cleanString_copyInto {bs : Bytes} (hplain : Plain bs) (hnul : 0 ∉ bs)
    (hend : mem[bs.length]? = some 0) : CleanString (copyInto mem bs bs.length) bs.length := by
  have hcopy : copyInto mem bs bs.length = bs ++ mem.drop bs.length := by
    rw [copyInto, take_length]
  have htake : (copyInto mem bs bs.length).take bs.length = bs := by
    rw [hcopy, take_left]
  refine ⟨by rwa [htake], by rwa [htake], ?_⟩
  rw [hcopy, getElem?_append_right le_rfl, Nat.sub_self, getElem?_drop, Nat.add_zero,
    hend]

theorem clean_set {p : SqlParam} {value : LuaValue} (h : Clean p.toDbBind)
    (hok : SetOk p value) : Clean (p.set value).1.toDbBind := by
  unfold SqlParam.set
  cases value with
  | nil => exact ⟨h.created, h.string⟩
  | number int64 double =>
    dsimp only
    split
    · exact clean_of_bigint rfl
    · exact clean_of_double rfl
    · exact ⟨h.created, h.string⟩
  | string bs =>
    dsimp only
    split
    · rename_i mem hbuffer
      obtain ⟨hplain, hnul, hend⟩ := hok mem hbuffer
      have hsize := (p.sized mem hbuffer).1
      have hlen : copiedLen p.maxLen bs.length = bs.length := by
        have hlt := (List.getElem?_eq_some_iff.mp hend).1
        exact if_neg (by omega)
      refine clean_of_varchar rfl ?_
      dsimp only
      rw [hlen]
      exact cleanString_copyInto hplain hnul hend
    · exact ⟨h.created, h.string⟩

theorem clean_bindCreate {btype : BindType} {maxLen : ℕ} {p : SqlParam}
    (hok : btype = .char ∨ btype = .varchar → 0 < maxLen)
    (h : bindCreate btype maxLen = some p) : Clean p.toDbBind := by
  have hstring (hpos : 0 < maxLen) : CleanString (replicate maxLen 0) 0 :=
    ⟨.nil, not_mem_nil, getElem?_replicate_of_lt hpos⟩
  cases btype with
  | tinyint | smallint | int | bigint =>
    cases h
    exact clean_of_bigint rfl
  | float | double =>
    cases h
    exact clean_of_double rfl
  | char =>
    cases h
    exact clean_of_varchar rfl (hstring (hok (.inl rfl)))
  | varchar =>
    cases h
    exact clean_of_varchar rfl (hstring (hok (.inr rfl)))
  | none | time | date | datetime | timestamp => cases h

theorem sound_step (h : Sound s) {call : PsCall} {r : PsResult} (hok : StepOk s call)
    (hstep : psStep s call = .ok (s', r)) : Sound s' := by
  cases call with
  | prepare query paramCount =>
    cases hstep
    refine ⟨h.params, fun stmt hstmt => ?_⟩
    rcases mem_append.mp hstmt with hold | hnew
    · exact (h.stmts stmt hold).mono le_rfl
    · rw [mem_singleton.mp hnew]
      exact ⟨hok, nofun⟩
  | bindCreate btype maxLen =>
    rw [psStep] at hstep
    split at hstep
    · cases hstep
      exact h
    · rename_i p hp
      cases hstep
      refine ⟨fun q hq => ?_, fun stmt hstmt => (h.stmts stmt hstmt).mono ?_⟩
      · rcases mem_append.mp hq with hold | hnew
        · exact h.params q hold
        · rw [mem_singleton.mp hnew]
          exact clean_bindCreate hok hp
      · rw [length_append]
        exact Nat.le_add_right _ _
  | set k value =>
    rw [psStep] at hstep
    split at hstep
    · cases hstep
    · rename_i p hp
      cases hstep
      have hmem := mem_of_getElem? hp
      refine ⟨fun q hq => ?_, fun stmt hstmt => (h.stmts stmt hstmt).mono ?_⟩
      · rcases mem_or_eq_of_mem_set hq with hold | rfl
        · exact h.params q hold
        · exact clean_set (h.params p hmem) (hok p hp)
      · exact length_set.symm.le
  | bindParam k params =>
    rw [psStep] at hstep
    split at hstep
    · cases hstep
      exact h
    · rename_i hne
      split at hstep
      · rename_i hvalid
        split at hstep
        · cases hstep
        · rename_i stmt hstmt
          cases hstep
          refine ⟨h.params, fun stmt' hstmt' => ?_⟩
          rcases mem_or_eq_of_mem_set hstmt' with hold | rfl
          · exact (h.stmts stmt' hold).mono le_rfl
          · have hlen := hok stmt hstmt
            rw [mysqlDrvBindParam, if_pos hlen.symm]
            refine ⟨(h.stmts stmt (mem_of_getElem? hstmt)).count, fun refs hrefs => ?_⟩
            cases hrefs
            exact ⟨rfl, hne, hlen, fun r hr => by simpa using all_eq_true.mp hvalid r hr⟩
      · cases hstep
  | execute k =>
    rw [psStep] at hstep
    split at hstep
    · cases hstep
    · cases hstep
      exact h

theorem sound_init : Sound PsState.init where
  params := nofun
  stmts := nofun

theorem length_binds {refs : List ℕ} (h : ∀ r ∈ refs, r < s.params.length) :
    (s.binds refs).length = refs.length := by
  induction refs with
  | nil => rfl
  | cons r refs ih =>
    have hr := h r mem_cons_self
    have hrest := ih fun r' hr' => h r' (mem_cons_of_mem _ hr')
    rw [PsState.binds, filterMap_cons, getElem?_eq_getElem hr]
    exact congrArg Nat.succ hrest

theorem mem_of_mem_binds {refs : List ℕ} (h : var ∈ s.binds refs) :
    ∃ p ∈ s.params, var = p.toDbBind := by
  obtain ⟨r, -, hr⟩ := mem_filterMap.mp h
  obtain ⟨p, hp, rfl⟩ := Option.map_eq_some_iff.mp hr
  exact ⟨p, mem_of_getElem? hp, rfl⟩

/-- **Emulated and server-side statements send the same values** in every state of a run whose
calls all meet `StepOk`, for every statement that has its parameters bound and whose text is not
too long: the k-th `?` becomes a literal for the value that is sent for the k-th parameter, be it
an integer or a string. -/
theorem emulation_sends_same_values (P : Printing) {s : PsState}
    (hrun : Reach psStep StepOk PsState.init s) {stmt : PsStmt} (hstmt : stmt ∈ s.stmts)
    {refs : List ℕ} (hbound : stmt.mysqlBind = some refs) (hquery : stmt.query.length < 2 ^ 32)
    (hshort : (substitute stmt.query ((s.binds refs).map (textOf P))).length < 2 ^ 30) :
    ∃ literals : List Bytes,
      SendsText P s stmt (substitute stmt.query literals) ∧
      literals.length = stmt.query.count 63 ∧ refs.length = stmt.query.count 63 ∧
      ∀ (k : ℕ) (var : DbBind), (s.binds refs)[k]? = some var →
        var.buffer.type = .bigint ∨ var.buffer.type = .varchar →
        ∃ literal v, literals[k]? = some literal ∧
          (convertToMysqlBind var).transmitted = some v ∧ value literal = some v := by
  have hsound : Sound s := hrun.invariant sound_init fun hs hok hstep => sound_step hs hok hstep
  obtain ⟨hcount, hrefs⟩ := hsound.stmts stmt hstmt
  obtain ⟨rfl, hne, hlen, hvalid⟩ := hrefs refs hbound
  have hbinds := length_binds hvalid
  have hclean (var : DbBind) (hvar : var ∈ s.binds stmt.boundParam) : Clean var := by
    obtain ⟨p, hp, rfl⟩ := mem_of_mem_binds hvar
    exact hsound.params p hp
  refine ⟨(s.binds stmt.boundParam).map (textOf P), ?_, ?_, hlen.trans hcount,
    fun k var hk htype => ?_⟩
  · have hne : stmt.query ≠ [] := by
      intro hnil
      rw [hcount, hnil] at hlen
      exact hne (length_eq_zero_iff.mp hlen)
    exact sendsText_substitute hne (fun var hvar => printedValue_ne_nothing (hclean var hvar))
      (by omega) hquery hshort
  · rw [length_map]
    omega
  · have hvar := hclean var (mem_of_getElem? hk)
    obtain ⟨v, hsent, hvalue⟩ := text_denotes (P := P) hvar htype
    exact ⟨textOf P var, v, by rw [getElem?_map, hk]; rfl, hsent, hvalue⟩

/-- `?,?` with -5 and `ab`. -/
theorem emulation_sends_same_values_int_and_string :
    ∃ s stmt literals, Reach psStep StepOk PsState.init s ∧ stmt ∈ s.stmts ∧
      SendsText plainPrinting s stmt (substitute stmt.query literals) ∧
      literals[0]?.bind value = some (.int (-5)) ∧
      literals[1]?.bind value = some (.bytes [97, 98]) := by
  have hplain : Plain [97, 98] := .byte (by decide) (by decide) (.byte (by decide) (by decide) .nil)
  have hinit : Reach psStep StepOk PsState.init PsState.init := .refl
  have hprepare (s : PsState) : StepOk s (.prepare [63, 44, 63] 2) := by
    show 2 = (cstr [63, 44, 63]).count 63
    decide
  have hint (s : PsState) : StepOk s (.bindCreate .int 0) := fun h => absurd h (by decide)
  have hstring (s : PsState) : StepOk s (.bindCreate .varchar 8) := fun _ => by decide
  have hsetInt (s : PsState) : StepOk s (.set 0 (.number (-5) 0)) := fun _ _ => trivial
  have hsetString {s : PsState}
      (hmem : ∀ p, s.params[1]? = some p → p.buffer = .varchar (List.replicate 8 0)) :
      StepOk s (.set 1 (.string [97, 98])) := by
    intro p hp mem hbuffer
    cases (hmem p hp).symm.trans hbuffer
    exact ⟨hplain, by decide, rfl⟩
  have hbind {s : PsState} (hcount : ∀ stmt, s.stmts[0]? = some stmt → stmt.paramCount = 2) :
      StepOk s (.bindParam 0 [0, 1]) := fun stmt hstmt => (hcount stmt hstmt).symm
  have hreach := (((((hinit.next (hprepare _) rfl).next (hint _) rfl).next (hstring _) rfl).next
    (hsetInt _) rfl).next (hsetString fun p hp => by cases hp; rfl) rfl).next
      (hbind fun stmt hstmt => by cases hstmt; rfl) rfl
  obtain ⟨literals, htext, -, -, hvalues⟩ := emulation_sends_same_values plainPrinting hreach
    mem_cons_self rfl (by decide) (by decide +kernel)
  obtain ⟨literal, v, hfirst, hv, hvalue⟩ := hvalues 0 _ rfl (.inl rfl)
  obtain ⟨literal', v', hsecond, hv', hvalue'⟩ := hvalues 1 _ rfl (.inr rfl)
  refine ⟨_, _, literals, hreach, mem_cons_self, htext, ?_, ?_⟩
  · rw [hfirst, Option.bind_some, hvalue, ← hv]
    rfl
  · rw [hsecond, Option.bind_some, hvalue', ← hv']
    rfl

/-- What both ways send for a single string parameter that is set again and again: what the
literal denotes, and the value. -/
def SendsStrings (P : Printing) (maxLen : ℕ) (strings : List Bytes) (literal : Option Value)
    (sent : Bytes) : Prop :=
  ∃ s stmt rets text,
    trace psStep PsState.init ([.prepare [63] 1, .bindCreate .varchar maxLen, .bindParam 0 [0]] ++
      strings.map fun bs => .set 0 (.string bs)) = .ok (s, rets) ∧
    s.stmts = [stmt] ∧ SendsText P s stmt text ∧ value text = literal ∧
    s.sendsValues stmt = some [some (.bytes sent)]

/-- A quote, a backslash, NUL, a longer string before, and a string that fills its buffer, behind
which stands an `x`. -/
theorem emulation_sends_other_values :
    SendsStrings plainPrinting 8 [[97, 39]] none [97, 39] ∧
    SendsStrings plainPrinting 8 [[97, 92, 110]] (some (.bytes [97, 10])) [97, 92, 110] ∧
    SendsStrings plainPrinting 8 [[97, 0, 98]] (some (.bytes [97])) [97, 0, 98] ∧
    SendsStrings plainPrinting 8 [[97, 98, 99], [120]] (some (.bytes [120, 98, 99])) [120] ∧
    SendsStrings { plainPrinting with behind := fun _ => [120] } 2 [[97, 98]]
      (some (.bytes [97, 98, 120])) [97, 98] := by
  have hone {P : Printing} {s : PsState} {stmt : PsStmt} {var : DbBind} {text : Bytes}
      (hquery : stmt.query = [63]) (hbound : s.binds stmt.boundParam = [var])
      (htext : printedValue P var = .text text) (hshort : text.length < 2 ^ 30) :
      SendsText P s stmt text := by
    have hsub : substitute stmt.query ((s.binds stmt.boundParam).map (textOf P)) = text := by
      rw [hquery, hbound]
      simp [substitute, textOf, htext]
    rw [← hsub] at hshort ⊢
    refine sendsText_substitute ?_ ?_ ?_ ?_ hshort
    · simp [hquery]
    · simp [hbound, htext]
    · simp [hquery, hbound]
    · simp [hquery]
  refine ⟨?_, ?_, ?_, ?_, ?_⟩
  all_goals
    refine ⟨_, _, _, _, rfl, rfl, hone rfl rfl rfl ?_, ?_, rfl⟩
  all_goals decide +kernel

end Sysbench.Bind
