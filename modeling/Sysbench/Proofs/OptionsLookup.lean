/-
Looking options up.

A lookup by name is all that anybody does with the list of options, so what the functions of
`sb_options.c` do to it is said in terms of lookups.  A change of one option is seen under
its own name and under no other; which calls succeed depends on the callbacks alone, and
nothing but a registration changes those.
-/
import Sysbench.Model.Options

namespace Sysbench.Options

variable {files : Files} {options : Registry}

/-! ### Names -/

/-- The two names are the same up to dashes and underscores. -/
def Alike (a b : Text) : Prop :=
  convertDashes a = convertDashes b

instance (a b : Text) : Decidable (Alike a b) :=
  inferInstanceAs (Decidable (convertDashes a = convertDashes b))

theorem Alike.refl (a : Text) : Alike a a := rfl

theorem Alike.length_eq {a b : Text} (h : Alike a b) : a.length = b.length := by
  have := congrArg List.length h
  simpa [convertDashes] using this

theorem dash_eq_iff (c d : Char) :
    ((if c = '-' then '_' else c) = if d = '-' then '_' else d)
      ↔ c = d ∨ (c = '-' ∨ c = '_') ∧ (d = '-' ∨ d = '_') := by
  by_cases hc : c = '-'
  · by_cases hd : d = '-'
    · simp [hc, hd]
    · simp [hc, hd, eq_comm]
  · by_cases hd : d = '-'
    · simp [hc, hd]
    · simp only [hc, hd, if_false, false_or]
      refine ⟨.inl, ?_⟩
      rintro (h | ⟨h, h'⟩)
      · exact h
      · rw [h, h']

/-- `opt_name_cmp` compares what `convert_dashes` would leave. -/
theorem optNameCmp_iff (a b : Text) : optNameCmp a b = true ↔ Alike a b := by
  induction a generalizing b with
  | nil =>
    cases b with
    | nil => exact ⟨fun _ => rfl, fun _ => rfl⟩
    | cons d b => exact ⟨nofun, nofun⟩
  | cons c a ih =>
    cases b with
    | nil => exact ⟨nofun, nofun⟩
    | cons d b =>
      have hhead := dash_eq_iff c d
      have htail := ih b
      simp only [optNameCmp, Alike, convertDashes, List.map_cons, List.cons.injEq, hhead]
      split
      · rename_i h
        rw [htail]
        exact ⟨fun ht => ⟨h, ht⟩, fun ht => ht.2⟩
      · rename_i h
        exact ⟨nofun, fun ht => absurd ht.1 h⟩

theorem convertDashes_idem (a : Text) : convertDashes (convertDashes a) = convertDashes a := by
  simp only [convertDashes, List.map_map]
  refine List.map_congr_left fun c _ => ?_
  by_cases hc : c = '-'
  · simp [hc]
  · simp [hc]

/-! ### Lookups -/

theorem findOption_congr {a b : Text} (h : Alike a b) (options : Registry) :
    findOption options a = findOption options b := by
  unfold findOption
  congr 1
  funext opt
  rw [Bool.eq_iff_iff, optNameCmp_iff, optNameCmp_iff, Alike, Alike, h]

theorem findOption_cons (opt : SbOption) (options : Registry) (name : Text) :
    findOption (opt :: options) name
      = if Alike opt.name name then some opt else findOption options name := by
  rw [findOption, List.find?_cons]
  by_cases h : Alike opt.name name
  · rw [(optNameCmp_iff _ _).mpr h, if_pos h]
  · rw [Bool.eq_false_iff.mpr fun hc => h ((optNameCmp_iff _ _).mp hc), if_neg h]
    rfl

/-- The option that a change of `name` starts from. -/
def current (options : Registry) (name : Text) : SbOption :=
  (findOption options name).getD (newOption name)

variable {change : SbOption → SbOption}

/-- **A change is seen under its own name and under no other.** -/
theorem findOption_editOption (hchange : ∀ opt, (change opt).name = opt.name) (options : Registry)
    (name m : Text) :
    findOption (editOption options name change) m
      = if Alike name m then some (change (current options name)) else findOption options m := by
  have hfresh : optNameCmp (newOption name).name name = true :=
    (optNameCmp_iff _ _).mpr (convertDashes_idem name)
  split
  · rename_i halike
    rw [← findOption_congr halike]
    exact FirstMatch.find?_edit_self (p := fun opt => optNameCmp opt.name name)
      (fun opt => by rw [hchange]) hfresh options
  · rename_i halike
    refine FirstMatch.find?_edit_of_disjoint (p := fun opt => optNameCmp opt.name name)
      (q := fun opt => optNameCmp opt.name m) ?_ (fun opt => by rw [hchange]) hfresh options
    intro opt hopt
    rw [Bool.eq_false_iff]
    intro hm
    rw [optNameCmp_iff] at hopt hm
    exact halike (hopt.symm.trans hm)

theorem current_editOption (hchange : ∀ opt, (change opt).name = opt.name) (options : Registry)
    (name : Text) :
    current (editOption options name change) name = change (current options name) := by
  rw [current, findOption_editOption hchange, if_pos (Alike.refl name), Option.getD_some]

variable {name : Text}

theorem current_eq {opt : SbOption} (h : findOption options name = some opt) :
    current options name = opt := by
  rw [current, h, Option.getD_some]

theorem validateOf_eq (options : Registry) (name : Text) :
    validateOf options name = (current options name).validate := by
  unfold validateOf current
  cases findOption options name with
  | none => rfl
  | some opt => rfl

theorem validateOf_editOption (hname : ∀ opt, (change opt).name = opt.name)
    (hvalidate : ∀ opt, (change opt).validate = opt.validate) (options : Registry) (name m : Text) :
    validateOf (editOption options name change) m = validateOf options m := by
  unfold validateOf
  rw [findOption_editOption hname]
  split
  · rename_i halike
    rw [← findOption_congr halike, Option.bind_some, hvalidate]
    exact (validateOf_eq options name).symm
  · rfl

/-! ### What succeeds -/

theorem validateOf_readLine (options : Registry) (buf m : Text) :
    validateOf (readLine options buf).1 m = validateOf options m := by
  unfold readLine
  split
  · rfl
  · exact validateOf_editOption (by intro; rfl) (by intro; rfl) _ _ _

theorem validateOf_readConfig (options : Registry) (bufs : List Text) (m : Text) :
    validateOf (readConfig options bufs) m = validateOf options m := by
  induction bufs generalizing options with
  | nil => rfl
  | cons buf bufs ih =>
    have hline := validateOf_readLine options buf m
    unfold readConfig
    split
    · rename_i options' h
      rw [ih, ← hline, h]
    · rename_i options' h
      rw [← hline, h]

theorem validateOf_readConfigFile (options : Registry) (filename m : Text) :
    validateOf (readConfigFile files options filename) m = validateOf options m := by
  unfold readConfigFile
  split
  · rfl
  · exact validateOf_readConfig _ _ _

/-- The callback agrees and the value is one of the type. -/
def accepts (validate : Option SbOptValidate) (name : Text) (value : Option Text)
    (type : SbArgType) : Bool :=
  !(validate.any fun f => !f name value) && (valuesOf type value).isSome

theorem validateOf_cleared (options : Registry) (name : Text) (type : SbArgType) (m : Text) :
    validateOf (editOption options name fun opt => { opt with values := [], type := type }) m
      = validateOf options m :=
  validateOf_editOption (by intro; rfl) (by intro; rfl) _ _ _

theorem setOption_snd (files : Files) (options : Registry) (name : Text)
    (value : Option Text) (type : SbArgType) :
    (setOption files options name value type).2
      = accepts (validateOf options name) name value type := by
  unfold setOption accepts
  dsimp only
  rw [validateOf_cleared]
  split
  · rename_i h
    rw [h]
    rfl
  · rename_i h
    rw [Bool.eq_false_iff.mpr h]
    cases valuesOf type value with
    | none => rfl
    | some values =>
      dsimp only
      split
      · rfl
      · rfl

theorem validateOf_setOption (options : Registry) (name : Text) (value : Option Text)
    (type : SbArgType) (m : Text) :
    validateOf (setOption files options name value type).1 m = validateOf options m := by
  have hcleared := validateOf_cleared options name type m
  have hfilled (options' : Registry) (values : List Text) :
      validateOf (editOption options' name fun opt => { opt with values := values }) m
        = validateOf options' m :=
    validateOf_editOption (by intro; rfl) (by intro; rfl) _ _ _
  unfold setOption
  dsimp only
  split
  · exact hcleared
  · split
    · exact hcleared
    · split
      · rw [validateOf_readConfigFile, hfilled, hcleared]
      · rw [hfilled, hcleared]

theorem validateOf_parseOption (options : Registry) (arg m : Text) :
    validateOf (parseOption files options arg).1 m = validateOf options m := by
  unfold parseOption
  dsimp only
  split
  · exact validateOf_setOption _ _ _ _ _
  · rfl

/-- The values that `set_option` leaves; a call that fails leaves none. -/
def assigned (validate : Option SbOptValidate) (name : Text) (value : Option Text)
    (type : SbArgType) : List Text :=
  if accepts validate name value type then (valuesOf type value).getD [] else []

theorem readsFile_of_ne {type : SbArgType} (value : Option Text) (h : type ≠ .file) :
    readsFile type value = false := by
  simp [readsFile, h]

/-- What `set_option` leaves under a name, if it reads no file. -/
theorem findOption_setOption (files : Files) {value : Option Text}
    {type : SbArgType} (hfile : readsFile type value = false) (options : Registry)
    (name m : Text) :
    findOption (setOption files options name value type).1 m
      = if Alike name m then
          some { current options name with
            type := type, values := assigned (validateOf options name) name value type }
        else findOption options m := by
  have hcleared : findOption
      (editOption options name fun opt => { opt with values := [], type := type }) m
        = if Alike name m then some { current options name with type := type, values := [] }
          else findOption options m := findOption_editOption (by intro; rfl) _ _ _
  unfold setOption assigned accepts
  dsimp only
  rw [validateOf_cleared]
  split
  · rename_i hreject
    rw [hreject, hcleared]
    rfl
  · rename_i hvalidate
    rw [Bool.eq_false_iff.mpr hvalidate]
    cases valuesOf type value with
    | none =>
      rw [hcleared]
      rfl
    | some values =>
      rw [hfile]
      simp only [Bool.false_eq_true, if_false]
      rw [findOption_editOption (by intro; rfl), current_editOption (by intro; rfl)]
      split
      · rfl
      · rename_i halike
        rw [hcleared, if_neg halike]

/-! ### Registration -/

/-- The last definition of an option in a set; earlier ones are overwritten. -/
def lastArg : List SbArg → Text → Option SbArg
  | [], _ => none
  | arg :: set, name =>
    match lastArg set name with
    | some a => some a
    | none => if Alike arg.name name then some arg else none

/-- One element of a set. -/
def registerOne (files : Files) (validate : Option SbOptValidate)
    (options : Registry) (arg : SbArg) : Registry :=
  editOption (setOption files options arg.name arg.value arg.type).1 arg.name
    fun opt => { opt with validate := validate }

variable {validate : Option SbOptValidate} {arg : SbArg} {set : List SbArg}

theorem registerArgs_cons
    (haccept : accepts (validateOf options arg.name) arg.name arg.value arg.type = true) :
    registerArgs files validate options (arg :: set)
      = registerArgs files validate (registerOne files validate options arg) set := by
  rw [← setOption_snd files] at haccept
  have hset : setOption files options arg.name arg.value arg.type = (_, true) :=
    Prod.ext rfl haccept
  rw [registerArgs, hset]
  rfl

theorem registerArgs_cons_of_refused
    (hrefuse : accepts (validateOf options arg.name) arg.name arg.value arg.type = false) :
    (registerArgs files validate options (arg :: set)).2 = false := by
  rw [← setOption_snd files] at hrefuse
  have hset : setOption files options arg.name arg.value arg.type = (_, false) :=
    Prod.ext rfl hrefuse
  rw [registerArgs, hset]

theorem accepts_of_registerArgs (h : (registerArgs files validate options (arg :: set)).2 = true) :
    accepts (validateOf options arg.name) arg.name arg.value arg.type = true := by
  rw [← Bool.not_eq_false]
  intro hrefuse
  rw [registerArgs_cons_of_refused hrefuse] at h
  cases h

theorem validateOf_registerOne (validate : Option SbOptValidate) (options : Registry)
    (arg : SbArg) (m : Text) :
    validateOf (registerOne files validate options arg) m
      = if Alike arg.name m then validate else validateOf options m := by
  unfold registerOne validateOf
  rw [findOption_editOption (by intro; rfl)]
  split
  · rfl
  · exact validateOf_setOption _ _ _ _ _

theorem registerArgs_snd_congr {options' : Registry}
    (h : ∀ m, validateOf options m = validateOf options' m) :
    (registerArgs files validate options set).2 = (registerArgs files validate options' set).2 := by
  induction set generalizing options options' with
  | nil => rfl
  | cons arg set ih =>
    cases haccept : accepts (validateOf options arg.name) arg.name arg.value arg.type with
    | true =>
      rw [registerArgs_cons haccept, registerArgs_cons (h arg.name ▸ haccept)]
      refine ih fun m => ?_
      rw [validateOf_registerOne, validateOf_registerOne, h]
    | false =>
      rw [registerArgs_cons_of_refused haccept,
        registerArgs_cons_of_refused (h arg.name ▸ haccept)]

theorem findOption_registerOne_of_not_alike (hfile : readsFile arg.type arg.value = false)
    {m : Text} (hm : ¬Alike arg.name m) :
    findOption (registerOne files validate options arg) m = findOption options m := by
  unfold registerOne
  rw [findOption_editOption (by intro; rfl), if_neg hm, findOption_setOption files hfile,
    if_neg hm]

theorem findOption_registerArgs_of_none (hfile : ∀ a ∈ set, readsFile a.type a.value = false)
    (hok : (registerArgs files validate options set).2 = true) (hnone : lastArg set name = none) :
    findOption (registerArgs files validate options set).1 name = findOption options name := by
  induction set generalizing options with
  | nil => rfl
  | cons arg set ih =>
    have haccept := accepts_of_registerArgs hok
    rw [registerArgs_cons haccept] at hok ⊢
    rw [lastArg] at hnone
    cases hlast : lastArg set name with
    | some a =>
      rw [hlast] at hnone
      cases hnone
    | none =>
      rw [hlast] at hnone
      have hne : ¬Alike arg.name name := by
        intro h
        simp only [if_pos h] at hnone
        cases hnone
      rw [ih (fun a ha => hfile a (List.mem_cons_of_mem _ ha)) hok hlast]
      exact findOption_registerOne_of_not_alike (hfile arg List.mem_cons_self) hne

theorem findOption_registerArgs_of_some (hfile : ∀ a ∈ set, readsFile a.type a.value = false)
    (hok : (registerArgs files validate options set).2 = true)
    (hsome : lastArg set name = some arg) :
    ∃ opt, findOption (registerArgs files validate options set).1 name = some opt ∧
      opt.type = arg.type ∧ valuesOf arg.type arg.value = some opt.values ∧
      opt.validate = validate := by
  induction set generalizing options with
  | nil => cases hsome
  | cons first set ih =>
    have haccept := accepts_of_registerArgs hok
    have hrest (a : SbArg) (ha : a ∈ set) := hfile a (List.mem_cons_of_mem _ ha)
    rw [registerArgs_cons haccept] at hok ⊢
    rw [lastArg] at hsome
    cases hlast : lastArg set name with
    | some a =>
      rw [hlast] at hsome
      cases hsome
      exact ih hrest hok hlast
    | none =>
      rw [hlast] at hsome
      simp only at hsome
      split at hsome
      · rename_i halike
        cases hsome
        obtain ⟨values, hvalues⟩ :=
          Option.isSome_iff_exists.mp (Bool.and_eq_true_iff.mp haccept).2
        rw [findOption_registerArgs_of_none hrest hok hlast, registerOne,
          findOption_editOption (by intro; rfl), if_pos halike]
        have hset := findOption_setOption files (hfile arg List.mem_cons_self) options
          arg.name arg.name
        rw [if_pos (Alike.refl _), assigned, if_pos haccept, hvalues] at hset
        rw [current_eq hset]
        exact ⟨_, rfl, rfl, hvalues, rfl⟩
      · cases hsome

/-! ### The two stages -/

theorem parseGeneralArguments_of_ok (hok : (sbRegisterArgSet files options set).2 = true)
    (argv : List Text) :
    parseGeneralArguments files set options argv
      = parseGeneralLoop files (sbRegisterArgSet files options set).1 none none argv := by
  have hset : sbRegisterArgSet files options set = (_, true) := Prod.ext rfl hok
  rw [parseGeneralArguments, hset]

theorem parseTestArguments_of_ok (hok : (sbRegisterArgSet files options set).2 = true)
    (argv : List Text) :
    parseTestArguments files set options argv
      = parseTestLoop files (sbRegisterArgSet files options set).1 argv := by
  have hset : sbRegisterArgSet files options set = (_, true) := Prod.ext rfl hok
  rw [parseTestArguments, hset]

end Sysbench.Options
