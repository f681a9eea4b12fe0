/-
Which callback checks an option.

`sb_register_arg_set` goes through its set with an index, but takes the callback from
`set->validate`, which is that of the first element: it is the one every option of the set
gets.  So an option is checked by its own callback exactly if that agrees with the first
one on the values of its type.

The types and the defaults of a set do arrive.  What can come between is an element that
names a configuration file and has one by default: the file is read when the element is
registered, and its entries replace what the elements before it have set.
-/
import Sysbench.Proofs.OptionsRejected

namespace Sysbench.Options

open List

variable {files : Files} {options : Registry} {opt : SbOption}

/-! ### What a file leaves under a name -/

variable {name : Text}

theorem findOption_applyEntries (entries : List (Text × List Text)) {options : Registry}
    (hopt : findOption options name = some opt) :
    findOption (applyEntries options entries) name
      = some { opt with values := (lastEntry entries name).getD opt.values } := by
  induction options generalizing entries with
  | nil => cases hopt
  | cons first options ih =>
    rw [findOption_cons] at hopt
    rw [applyEntries_cons, findOption_cons]
    by_cases halike : Alike first.name name
    · rw [if_pos halike, Option.some.injEq] at hopt
      subst hopt
      rw [if_pos halike, lastEntry_congr halike]
    · rw [if_neg halike] at hopt
      rw [if_neg halike, ← lastEntry_filter_of_not_alike halike entries]
      exact ih _ hopt

theorem lastEntry_append (entries more : List (Text × List Text)) (name : Text) :
    lastEntry (entries ++ more) name = (lastEntry more name).or (lastEntry entries name) := by
  unfold lastEntry
  rw [filter_append, getLast?_append, Option.map_or]

/-- The entries of the file that an element of a set has by default. -/
def fileEntries (files : Files) (arg : SbArg) : List (Text × List Text) :=
  if readsFile arg.type arg.value then
    ((files (arg.value.getD [])).map fun content =>
      configEntries (Fgets.chunks bufferLength content)).getD []
  else []

theorem readConfigFile_eq (options : Registry) (filename : Text) :
    readConfigFile files options filename
      = applyEntries options (((files filename).map fun content =>
          configEntries (Fgets.chunks bufferLength content)).getD []) := by
  unfold readConfigFile
  cases files filename with
  | none => rfl
  | some content => exact readConfig_eq_applyEntries _ _

theorem setOption_of_accepted {arg : SbArg} {values : List Text}
    (haccept : accepts (validateOf options arg.name) arg.name arg.value arg.type = true)
    (hvalues : valuesOf arg.type arg.value = some values) :
    (setOption files options arg.name arg.value arg.type).1
      = applyEntries
          (editOption (editOption options arg.name fun opt =>
            { opt with values := [], type := arg.type }) arg.name
              fun opt => { opt with values := values })
          (fileEntries files arg) := by
  have hagree : ¬((validateOf options arg.name).any fun f => !f arg.name arg.value) = true := by
    unfold accepts at haccept
    intro hc
    rw [hc] at haccept
    cases haccept
  unfold setOption fileEntries
  dsimp only
  rw [validateOf_cleared, if_neg hagree, hvalues]
  dsimp only
  by_cases hreads : readsFile arg.type arg.value = true
  · rw [if_pos hreads, if_pos hreads, readConfigFile_eq]
  · rw [if_neg hreads, if_neg hreads]
    rfl

/-! ### Registering one element -/

section One

variable (files) (validate : Option SbOptValidate) {arg : SbArg} {values : List Text}
  (haccept : accepts (validateOf options arg.name) arg.name arg.value arg.type = true)
  (hvalues : valuesOf arg.type arg.value = some values)

include haccept hvalues

/-- The element itself gets its type, the callback, and its default unless its file has
something to say about it. -/
theorem findOption_registerOne_self :
    ∃ opt, findOption (registerOne files validate options arg) arg.name = some opt ∧
      opt.type = arg.type ∧
      opt.values = (lastEntry (fileEntries files arg) arg.name).getD values := by
  have hfilled : findOption
      (editOption (editOption options arg.name fun opt =>
        { opt with values := [], type := arg.type }) arg.name
          fun opt => { opt with values := values }) arg.name
        = some { current options arg.name with values := values, type := arg.type } := by
    rw [findOption_editOption (by intro; rfl), if_pos (Alike.refl _),
      current_editOption (by intro; rfl)]
  have hset := findOption_applyEntries (fileEntries files arg) hfilled
  rw [← setOption_of_accepted haccept hvalues] at hset
  have hone : findOption (registerOne files validate options arg) arg.name
      = some { current options arg.name with
          type := arg.type
          values := (lastEntry (fileEntries files arg) arg.name).getD values
          validate := validate } := by
    rw [registerOne, findOption_editOption (by intro; rfl), if_pos (Alike.refl _), current_eq hset]
  exact ⟨_, hone, rfl, rfl⟩

/-- Another option is only touched by the file. -/
theorem findOption_registerOne_other {name : Text}
    (hne : ¬Alike arg.name name) (hopt : findOption options name = some opt) :
    findOption (registerOne files validate options arg) name
      = some { opt with values := (lastEntry (fileEntries files arg) name).getD opt.values } := by
  have hfilled : findOption
      (editOption (editOption options arg.name fun opt =>
        { opt with values := [], type := arg.type }) arg.name
          fun opt => { opt with values := values }) name
        = some opt := by
    rw [findOption_editOption (by intro; rfl), if_neg hne, findOption_editOption (by intro; rfl),
      if_neg hne, hopt]
  rw [registerOne, findOption_editOption (by intro; rfl), if_neg hne,
    setOption_of_accepted haccept hvalues]
  exact findOption_applyEntries _ hfilled

end One

/-! ### Registering a set -/

variable {validate : Option SbOptValidate}

theorem findOption_registerArgs_other {set : List SbArg}
    (hne : ∀ a ∈ set, ¬Alike a.name name) (hok : (registerArgs files validate options set).2 = true)
    (hopt : findOption options name = some opt) :
    findOption (registerArgs files validate options set).1 name
      = some { opt with
          values := (lastEntry (set.flatMap (fileEntries files)) name).getD opt.values } := by
  induction set generalizing options opt with
  | nil => exact hopt
  | cons arg set ih =>
    have haccept := accepts_of_registerArgs hok
    obtain ⟨values, hvalues⟩ := Option.isSome_iff_exists.mp (Bool.and_eq_true_iff.mp haccept).2
    rw [registerArgs_cons haccept] at hok ⊢
    have hone := findOption_registerOne_other files validate haccept hvalues
      (hne arg mem_cons_self) hopt
    rw [ih (fun a ha => hne a (mem_cons_of_mem _ ha)) hok hone, flatMap_cons,
      lastEntry_append]
    cases lastEntry (set.flatMap (fileEntries files)) name <;> rfl

theorem validateOf_registerArgs_other {set : List SbArg} (hne : ∀ a ∈ set, ¬Alike a.name name)
    (hok : (registerArgs files validate options set).2 = true) :
    validateOf (registerArgs files validate options set).1 name = validateOf options name := by
  induction set generalizing options with
  | nil => rfl
  | cons arg set ih =>
    have haccept := accepts_of_registerArgs hok
    rw [registerArgs_cons haccept] at hok ⊢
    rw [ih (fun a ha => hne a (mem_cons_of_mem _ ha)) hok, validateOf_registerOne,
      if_neg (hne arg mem_cons_self)]

theorem registerArgs_append {before rest : List SbArg}
    (hok : (registerArgs files validate options (before ++ rest)).2 = true) :
    ∃ options', registerArgs files validate options (before ++ rest)
      = registerArgs files validate options' rest := by
  induction before generalizing options with
  | nil => exact ⟨options, rfl⟩
  | cons arg before ih =>
    have haccept := accepts_of_registerArgs hok
    rw [cons_append, registerArgs_cons haccept] at hok ⊢
    exact ih hok

/-- An element of a registered set: its type, its values, its callback. -/
theorem registerArgs_element {before after : List SbArg} {arg : SbArg}
    (hafter : ∀ a ∈ after, ¬Alike a.name arg.name)
    (hok : (registerArgs files validate options (before ++ arg :: after)).2 = true) :
    ∃ opt values,
      findOption (registerArgs files validate options (before ++ arg :: after)).1 arg.name
        = some opt ∧
      opt.type = arg.type ∧ valuesOf arg.type arg.value = some values ∧
      opt.values
        = (lastEntry ((arg :: after).flatMap (fileEntries files)) arg.name).getD values ∧
      validateOf (registerArgs files validate options (before ++ arg :: after)).1 arg.name
        = validate := by
  obtain ⟨options', heq⟩ := registerArgs_append hok
  rw [heq] at hok ⊢
  have haccept := accepts_of_registerArgs hok
  obtain ⟨values, hvalues⟩ := Option.isSome_iff_exists.mp (Bool.and_eq_true_iff.mp haccept).2
  rw [registerArgs_cons haccept] at hok ⊢
  obtain ⟨opt, hopt, htype, hopt_values⟩ :=
    findOption_registerOne_self files validate haccept hvalues
  refine ⟨_, values, findOption_registerArgs_other hafter hok hopt, htype, hvalues, ?_, ?_⟩
  · rw [flatMap_cons, lastEntry_append, hopt_values]
    cases lastEntry (after.flatMap (fileEntries files)) arg.name <;> rfl
  · rw [validateOf_registerArgs_other hafter hok, validateOf_registerOne, if_pos (Alike.refl _)]

/-! ### Later calls -/

/-- Calls that set options, as the command line and the files do. -/
def RegistryOp.SetsOptions : RegistryOp → Prop
  | .add _ => True
  | .set _ _ _ => True
  | .register _ => False
  | .remove _ => False

theorem validateOf_applyOp {op : RegistryOp} (h : op.SetsOptions) (options : Registry)
    (name : Text) : validateOf (applyOp files options op) name = validateOf options name := by
  cases op with
  | add other => exact validateOf_editOption (by intro; rfl) (by intro; rfl) _ _ _
  | set other value type => exact validateOf_setOption _ _ _ _ _
  | register set | remove other => exact h.elim

theorem validateOf_applyOps {ops : List RegistryOp} (h : ∀ op ∈ ops, op.SetsOptions)
    (options : Registry) (name : Text) :
    validateOf (ops.foldl (applyOp files) options) name = validateOf options name := by
  induction ops generalizing options with
  | nil => rfl
  | cons op ops ih =>
    rw [foldl_cons, ih fun o ho => h o (mem_cons_of_mem _ ho)]
    exact validateOf_applyOp (h op mem_cons_self) options name

/-- **The callbacks of a set.**  With distinct names, every option of a registered set has the
type and the default of its element and is checked by its callback, now and behind any calls
that set options, exactly if each callback agrees with the first one on the values of its
type and no file that is read on the way has other values for an option. -/
theorem registered_set_checks_iff (files : Files) (options : Registry)
    (set : List SbArg) (hnames : (set.map fun a => convertDashes a.name).Nodup)
    (hok : (sbRegisterArgSet files options set).2 = true) :
    (∀ before arg after, set = before ++ arg :: after →
      (∃ opt, findOption (sbRegisterArgSet files options set).1 arg.name = some opt ∧
        opt.type = arg.type ∧ valuesOf arg.type arg.value = some opt.values) ∧
      ∀ ops : List RegistryOp, (∀ op ∈ ops, op.SetsOptions) → ∀ v,
        (setOption files (ops.foldl (applyOp files) (sbRegisterArgSet files options set).1)
          arg.name v arg.type).2 = accepts arg.validate arg.name v arg.type) ↔
    ∀ before arg after, set = before ++ arg :: after →
      (∀ values, lastEntry ((arg :: after).flatMap (fileEntries files)) arg.name = some values →
        valuesOf arg.type arg.value = some values) ∧
      ∀ v, accepts (set.head?.bind (·.validate)) arg.name v arg.type
        = accepts arg.validate arg.name v arg.type := by
  refine forall_congr' fun before => forall_congr' fun arg => forall_congr' fun after =>
    forall_congr' fun hset => ?_
  have hafter : ∀ a ∈ after, ¬Alike a.name arg.name := by
    intro a ha halike
    rw [hset, map_append, map_cons] at hnames
    have hcons := (nodup_append.mp hnames).2.1
    exact (nodup_cons.mp hcons).1 (mem_map.mpr ⟨a, ha, halike⟩)
  generalize hfirst : set.head?.bind (·.validate) = first
  have hregister : sbRegisterArgSet files options set
      = registerArgs files first options (before ++ arg :: after) := by
    rw [sbRegisterArgSet, hfirst, ← hset]
  rw [hregister] at hok ⊢
  obtain ⟨opt, values, hopt, htype, hvalues, hopt_values, hvalidate⟩ :=
    registerArgs_element hafter hok
  refine and_congr ?_ ?_
  · rw [hvalues, hopt]
    simp only [Option.some.injEq, exists_eq_left', htype, true_and, hopt_values]
    cases lastEntry ((arg :: after).flatMap (fileEntries files)) arg.name with
    | none | some last => simp
  · have hlater : ∀ ops : List RegistryOp, (∀ op ∈ ops, op.SetsOptions) → ∀ v,
        (setOption files (ops.foldl (applyOp files)
          (registerArgs files first options (before ++ arg :: after)).1) arg.name v arg.type).2
          = accepts first arg.name v arg.type := by
      intro ops hops v
      rw [setOption_snd, validateOf_applyOps hops, hvalidate]
    constructor
    · intro h v
      rw [← hlater [] nofun v]
      exact h [] nofun v
    · intro h ops hops v
      rw [hlater ops hops v]
      exact h v

/-- A callback that refuses `bad`. -/
def refusesBad : SbOptValidate := fun _ value => value ≠ some "bad".toList

/-- Of two elements with that callback, each is checked by it. -/
theorem same_callbacks_check :
    let set : List SbArg := [⟨"a".toList, some "x".toList, .string, some refusesBad⟩,
      ⟨"b".toList, some "y".toList, .string, some refusesBad⟩]
    (setOption (fun _ => none) (sbRegisterArgSet (fun _ => none) [] set).1 "b".toList
      (some "bad".toList) .string).2 = false := by
  intro set
  have h := (registered_set_checks_iff (fun _ => none) [] set (by decide) rfl).mpr (by
    intro before arg after hset
    have harg : arg ∈ set := by
      rw [hset]
      exact mem_append_right _ mem_cons_self
    have hfiles : (arg :: after).flatMap (fileEntries fun _ => none) = [] := by
      simp [fileEntries]
    refine ⟨fun values hvalues => ?_, fun v => ?_⟩
    · rw [hfiles] at hvalues
      exact nomatch hvalues
    · simp only [set, mem_cons, not_mem_nil, or_false] at harg
      rcases harg with rfl | rfl
      · rfl
      · rfl)
  exact (h [set.head (by simp [set])] _ [] rfl).2 [] nofun (some "bad".toList)

/-- The callback of a second element is not called: its own is replaced by that of the first. -/
theorem second_callback_is_lost :
    let set : List SbArg := [⟨"a".toList, some "x".toList, .string, none⟩,
      ⟨"b".toList, some "y".toList, .string, some refusesBad⟩]
    (set.map fun a => convertDashes a.name).Nodup ∧
      (sbRegisterArgSet (fun _ => none) [] set).2 = true ∧
      refusesBad "b".toList (some "bad".toList) = false ∧
      (setOption (fun _ => none) (sbRegisterArgSet (fun _ => none) [] set).1 "b".toList
        (some "bad".toList) .string).2 = true :=
  ⟨by decide, rfl, rfl, rfl⟩

end Sysbench.Options
