/-
The two stages of option processing are one.

General options are set in the first pass over the command line and the test's in the second,
whose defaults are registered in between.  What a pass does to an option depends on its type
alone, which no pass changes: so a pass leaves an option with the last value given for it, and
leaves out exactly the arguments that it refuses.  An argument that names a test's option is
unknown in the first pass and reaches the second; one that names a general option reaches the
second only if it has been refused, and is then refused once more.
-/
import Sysbench.Proofs.OptionsLookup

namespace Sysbench.Options

open List

variable {files : Files} {options : Registry} {name : Text} {argv : List Text}

/-! ### Arguments -/

/-- The name in `--name[=value]`. -/
def optionName (arg : Text) : Text :=
  ((arg.drop 2).span (· ≠ '=')).1

/-- The value in `--name[=value]`. -/
def optionArgument (arg : Text) : Option Text :=
  ((arg.drop 2).span (· ≠ '=')).2.tail?

/-- The argument sets the option of that name. -/
def gives (name arg : Text) : Bool :=
  isOption arg && decide (Alike (optionName arg) name)

/-- The value of the last occurrence of an option. -/
def lastGiven (argv : List Text) (name : Text) : Option (Option Text) :=
  (argv.filter (gives name)).getLast?.map optionArgument

/-- The arguments that are no options. -/
def positional (argv : List Text) : List Text :=
  argv.filter fun arg => !isOption arg

theorem parseOption_eq (options : Registry) (arg : Text) :
    parseOption files options (arg.drop 2)
      = match findOption options (optionName arg) with
        | some opt => setOption files options (optionName arg) (optionArgument arg) opt.type
        | none => (options, false) := rfl

/-! ### Settings -/

/-- The type and the values of an option. -/
abbrev Setting := SbArgType × List Text

def settingIn (options : Registry) (name : Text) : Option Setting :=
  (findOption options name).map fun opt => (opt.type, opt.values)

def typeIn (options : Registry) (name : Text) : Option SbArgType :=
  (settingIn options name).map (·.1)

/-- A value for an option of that type, or for one that does not exist, is refused. -/
def refuses (type : Option SbArgType) (value : Option Text) : Bool :=
  type.all fun type => (valuesOf type value).isNone

/-- The setting of an option with a value in the place of its own. -/
def Setting.assign (value : Option Text) (setting : Setting) : Setting :=
  (setting.1, (valuesOf setting.1 value).getD [])

/-- The setting of an option after the arguments. -/
def overridden (argv : List Text) (name : Text) (setting : Option Setting) : Option Setting :=
  match lastGiven argv name with
  | some value => setting.map (Setting.assign value)
  | none => setting

theorem overridden_nil (name : Text) (setting : Option Setting) :
    overridden [] name setting = setting := rfl

theorem map_assign_assign (v w : Option Text) (setting : Option Setting) :
    (setting.map (Setting.assign v)).map (Setting.assign w) = setting.map (Setting.assign w) := by
  rw [Option.map_map]
  rfl

theorem overridden_cons (arg : Text) (argv : List Text) (name : Text) (setting : Option Setting) :
    overridden (arg :: argv) name setting
      = overridden argv name
          (if gives name arg then setting.map (Setting.assign (optionArgument arg))
            else setting) := by
  unfold overridden lastGiven
  cases hgives : gives name arg with
  | false => simp [hgives]
  | true =>
    rw [filter_cons_of_pos hgives, getLast?_cons]
    cases (argv.filter (gives name)).getLast? with
    | none => rfl
    | some last => exact (map_assign_assign _ _ _).symm

theorem map_fst_overridden (argv : List Text) (name : Text) (setting : Option Setting) :
    (overridden argv name setting).map (·.1) = setting.map (·.1) := by
  unfold overridden
  split
  · rw [Option.map_map]
    rfl
  · rfl

/-! ### One argument -/

/-- No option has a callback. -/
def NoCallbacks (options : Registry) : Prop :=
  ∀ name, validateOf options name = none

/-- The arguments of one option that the registry refuses. -/
def leftOver (types : Text → Option SbArgType) (arg : Text) : Bool :=
  isOption arg && refuses (types (optionName arg)) (optionArgument arg)

theorem accepts_none (name : Text) (value : Option Text) (type : SbArgType) :
    accepts none name value type = (valuesOf type value).isSome := by
  rw [accepts, Option.any_none, Bool.not_false, Bool.true_and]

theorem assigned_none (name : Text) (value : Option Text) (type : SbArgType) :
    assigned none name value type = (valuesOf type value).getD [] := by
  rw [assigned, accepts_none]
  cases valuesOf type value with
  | none | some values => rfl

theorem parseOption_snd (files : Files) (h : NoCallbacks options) (arg : Text) :
    (parseOption files options (arg.drop 2)).2
      = !refuses (typeIn options (optionName arg)) (optionArgument arg) := by
  rw [parseOption_eq, typeIn, settingIn]
  cases findOption options (optionName arg) with
  | none => rfl
  | some opt =>
    rw [setOption_snd, h, accepts_none]
    show _ = !(valuesOf opt.type (optionArgument arg)).isNone
    rw [Option.not_isNone]

theorem settingIn_parseOption (h : NoCallbacks options) {arg : Text} (harg : isOption arg = true)
    (hfile : typeIn options (optionName arg) ≠ some .file) (name : Text) :
    settingIn (parseOption files options (arg.drop 2)).1 name
      = overridden [arg] name (settingIn options name) := by
  have hgives : gives name arg = decide (Alike (optionName arg) name) := by
    rw [gives, harg, Bool.true_and]
  rw [overridden_cons, overridden_nil, hgives, parseOption_eq]
  unfold settingIn
  cases hfind : findOption options (optionName arg) with
  | none =>
    dsimp only
    split
    · rename_i halike
      rw [← findOption_congr (of_decide_eq_true halike), hfind]
      rfl
    · rfl
  | some opt =>
    have htype : opt.type ≠ .file := by
      intro htype
      rw [typeIn, settingIn, hfind, ← htype] at hfile
      exact hfile rfl
    rw [findOption_setOption files (readsFile_of_ne _ htype), h, assigned_none]
    by_cases halike : Alike (optionName arg) name
    · rw [if_pos halike, if_pos (decide_eq_true halike), ← findOption_congr halike, hfind]
      rfl
    · rw [if_neg halike, if_neg (by simpa using halike)]

/-! ### A pass -/

/-- What a pass over the arguments does to the options. -/
structure Passed (argv : List Text) (options options' : Registry) : Prop where
  callbacks : NoCallbacks options'
  settings : ∀ name, settingIn options' name = overridden argv name (settingIn options name)

variable {options' options'' : Registry} {arg : Text} {argv : List Text}

theorem Passed.types (h : Passed argv options options') : typeIn options' = typeIn options := by
  funext name
  rw [typeIn, h.settings, map_fst_overridden]
  rfl

/-- One option: it sets what it names, and it is accepted unless it is left over. -/
theorem parseOption_step (files : Files) {types : Text → Option SbArgType}
    (htypes : typeIn options = types) (h : NoCallbacks options) (harg : isOption arg = true)
    (hfile : types (optionName arg) ≠ some .file) :
    ∃ options', parseOption files options (arg.drop 2) = (options', !leftOver types arg) ∧
      Passed [arg] options options' := by
  subst htypes
  refine ⟨_, Prod.ext rfl ?_, fun name => ?_, settingIn_parseOption h harg hfile⟩
  · rw [parseOption_snd files h, leftOver, harg, Bool.true_and]
  · rw [validateOf_parseOption, h]

theorem Passed.cons (hfirst : Passed [arg] options options')
    (hrest : Passed argv options' options'') : Passed (arg :: argv) options options'' := by
  refine ⟨hrest.callbacks, fun name => ?_⟩
  rw [hrest.settings, hfirst.settings, overridden_cons, overridden_nil, ← overridden_cons]

theorem Passed.skip (hrest : Passed argv options options') (harg : isOption arg = false) :
    Passed (arg :: argv) options options' := by
  refine ⟨hrest.callbacks, fun name => ?_⟩
  have hgives : gives name arg = false := by rw [gives, harg, Bool.false_and]
  rw [hrest.settings, overridden_cons, hgives, if_neg Bool.false_ne_true]

theorem positional_cons_of_option (harg : isOption arg = true) :
    positional (arg :: argv) = positional argv := by
  simp [positional, harg]

theorem positional_cons_of_word (harg : isOption arg = false) :
    positional (arg :: argv) = arg :: positional argv := by
  simp [positional, harg]

section FirstPass

variable {testname cmdname : Option Text}

/-- How many arguments that are no options can still be taken. -/
def free (testname cmdname : Option Text) : ℕ :=
  (if testname.isNone then 1 else 0) + if cmdname.isNone then 1 else 0

theorem free_none (name : Text) (cmdname : Option Text) :
    free none cmdname = free (some name) cmdname + 1 := by
  simp [free, Nat.add_comm]

/-- The first pass takes a test name and a command and sets the options it knows; the others are
left, and so are those it refuses. -/
theorem parseGeneralLoop_ok {types : Text → Option SbArgType}
    (htypes : typeIn options = types) (h : NoCallbacks options)
    (hfile : ∀ arg ∈ argv, isOption arg = true → types (optionName arg) ≠ some .file)
    (hfree : (positional argv).length ≤ free testname cmdname) :
    ∃ options', parseGeneralLoop files options testname cmdname argv
        = .ok (options', argv.filter (leftOver types)) ∧ Passed argv options options' := by
  induction argv generalizing options testname cmdname with
  | nil => exact ⟨options, rfl, h, fun name => rfl⟩
  | cons arg argv ih =>
    have hrest (a : Text) (ha : a ∈ argv) := hfile a (mem_cons_of_mem _ ha)
    cases harg : isOption arg with
    | true =>
      obtain ⟨options₁, hparse, hfirst⟩ :=
        parseOption_step files htypes h harg (hfile arg mem_cons_self harg)
      rw [positional_cons_of_option harg] at hfree
      obtain ⟨options', hloop, hpassed⟩ :=
        ih (hfirst.types.trans htypes) hfirst.callbacks hrest hfree
      refine ⟨options', ?_, hfirst.cons hpassed⟩
      cases hleft : leftOver types arg with
      | true | false => simp [parseGeneralLoop, harg, hparse, hleft, hloop]
    | false =>
      rw [positional_cons_of_word harg] at hfree
      have hkeep : (arg :: argv).filter (leftOver types) = argv.filter (leftOver types) := by
        simp [leftOver, harg]
      rw [hkeep]
      cases testname with
      | none =>
        rw [free_none arg] at hfree
        have hfree' := Nat.le_of_succ_le_succ hfree
        obtain ⟨options', hloop, hpassed⟩ := ih htypes h hrest hfree'
        refine ⟨options', ?_, hpassed.skip harg⟩
        simp [parseGeneralLoop, harg, hloop]
      | some name =>
        cases cmdname with
        | none =>
          have hfree' : (positional argv).length ≤ free (some name) (some arg) :=
            Nat.le_of_succ_le_succ hfree
          obtain ⟨options', hloop, hpassed⟩ := ih htypes h hrest hfree'
          refine ⟨options', ?_, hpassed.skip harg⟩
          simp [parseGeneralLoop, harg, hloop]
        | some cmd => exact absurd hfree (Nat.not_succ_le_zero _)

theorem parseGeneralLoop_error (hfree : free testname cmdname < (positional argv).length) :
    ∃ e, parseGeneralLoop files options testname cmdname argv = .error e := by
  induction argv generalizing options testname cmdname with
  | nil => exact absurd hfree (Nat.not_lt_zero _)
  | cons arg argv ih =>
    cases harg : isOption arg with
    | true =>
      rw [positional_cons_of_option harg] at hfree
      rcases hparse : parseOption files options (arg.drop 2) with ⟨options₁, ok⟩
      obtain ⟨e, he⟩ := @ih options₁ _ _ hfree
      cases ok with
      | true | false => simp [parseGeneralLoop, harg, hparse, he]
    | false =>
      rw [positional_cons_of_word harg] at hfree
      cases testname with
      | none =>
        rw [free_none arg] at hfree
        simp only [parseGeneralLoop, harg, Bool.false_eq_true, if_false]
        exact ih (Nat.lt_of_succ_lt_succ hfree)
      | some name =>
        cases cmdname with
        | none =>
          simp only [parseGeneralLoop, harg, Bool.false_eq_true, if_false]
          exact ih (Nat.lt_of_succ_lt_succ hfree)
        | some cmd => simp [parseGeneralLoop, harg]

end FirstPass

section SecondPass

/-- The second pass sets what is left, if it refuses nothing of it. -/
theorem parseTestLoop_ok {types : Text → Option SbArgType}
    (htypes : typeIn options = types) (h : NoCallbacks options)
    (hfile : ∀ arg ∈ argv, isOption arg = true → types (optionName arg) ≠ some .file)
    (hnone : ∀ arg ∈ argv, leftOver types arg = false) :
    ∃ options', parseTestLoop files options argv = .ok options' ∧
      Passed argv options options' := by
  induction argv generalizing options with
  | nil => exact ⟨options, rfl, h, fun name => rfl⟩
  | cons arg argv ih =>
    have hrest (a : Text) (ha : a ∈ argv) := hfile a (mem_cons_of_mem _ ha)
    have hrest' (a : Text) (ha : a ∈ argv) := hnone a (mem_cons_of_mem _ ha)
    cases harg : isOption arg with
    | true =>
      obtain ⟨options₁, hparse, hfirst⟩ :=
        parseOption_step files htypes h harg (hfile arg mem_cons_self harg)
      rw [hnone arg mem_cons_self] at hparse
      obtain ⟨options', hloop, hpassed⟩ :=
        ih (hfirst.types.trans htypes) hfirst.callbacks hrest hrest'
      refine ⟨options', ?_, hfirst.cons hpassed⟩
      simp [parseTestLoop, harg, hparse, hloop]
    | false =>
      obtain ⟨options', hloop, hpassed⟩ := ih htypes h hrest hrest'
      refine ⟨options', ?_, hpassed.skip harg⟩
      simp [parseTestLoop, harg, hloop]

theorem parseTestLoop_error {types : Text → Option SbArgType}
    (htypes : typeIn options = types) (h : NoCallbacks options)
    (hfile : ∀ arg ∈ argv, isOption arg = true → types (optionName arg) ≠ some .file)
    (hsome : ∃ arg ∈ argv, leftOver types arg = true) :
    ∃ e, parseTestLoop files options argv = .error e := by
  induction argv generalizing options with
  | nil =>
    obtain ⟨arg, harg, -⟩ := hsome
    cases harg
  | cons arg argv ih =>
    have hrest (a : Text) (ha : a ∈ argv) := hfile a (mem_cons_of_mem _ ha)
    have hlater (hleft : leftOver types arg = false) : ∃ a ∈ argv, leftOver types a = true := by
      obtain ⟨a, ha, hrefused⟩ := hsome
      rcases mem_cons.mp ha with rfl | ha
      · cases hleft.symm.trans hrefused
      · exact ⟨a, ha, hrefused⟩
    cases harg : isOption arg with
    | true =>
      obtain ⟨options₁, hparse, hfirst⟩ :=
        parseOption_step files htypes h harg (hfile arg mem_cons_self harg)
      cases hleft : leftOver types arg with
      | true => simp [parseTestLoop, harg, hparse, hleft]
      | false =>
        obtain ⟨e, he⟩ := ih (hfirst.types.trans htypes) hfirst.callbacks hrest (hlater hleft)
        simp [parseTestLoop, harg, hparse, hleft, he]
    | false =>
      obtain ⟨e, he⟩ := ih htypes h hrest (hlater (by rw [leftOver, harg, Bool.false_and]))
      simp [parseTestLoop, harg, he]

end SecondPass

/-! ### Registration -/

/-- The setting that a set gives an option, or what it had before. -/
def registered (options : Registry) (set : List SbArg) (name : Text) : Option Setting :=
  match lastArg set name with
  | some arg => some (arg.type, (valuesOf arg.type arg.value).getD [])
  | none => settingIn options name

section Registration

variable {set : List SbArg}

theorem head_validate (hset : ∀ a ∈ set, a.validate = none) :
    set.head?.bind (·.validate) = none := by
  cases set with
  | nil => rfl
  | cons a set => exact hset a mem_cons_self

theorem registerArgs_noCallbacks (h : NoCallbacks options) :
    NoCallbacks (registerArgs files none options set).1 := by
  induction set generalizing options with
  | nil => exact h
  | cons arg set ih =>
    cases haccept : accepts (validateOf options arg.name) arg.name arg.value arg.type with
    | true =>
      rw [registerArgs_cons haccept]
      refine ih fun name => ?_
      rw [validateOf_registerOne, h, ite_self]
    | false =>
      rw [← setOption_snd files] at haccept
      have hset : setOption files options arg.name arg.value arg.type = (_, false) :=
        Prod.ext rfl haccept
      rw [registerArgs, hset]
      exact fun name => (validateOf_setOption _ _ _ _ _).trans (h name)

theorem settingIn_register (hset : ∀ a ∈ set, a.validate = none)
    (hfile : ∀ a ∈ set, readsFile a.type a.value = false) (h : NoCallbacks options)
    (hok : (sbRegisterArgSet files options set).2 = true) :
    NoCallbacks (sbRegisterArgSet files options set).1 ∧
      settingIn (sbRegisterArgSet files options set).1 = registered options set := by
  rw [sbRegisterArgSet, head_validate hset] at hok ⊢
  refine ⟨registerArgs_noCallbacks h, ?_⟩
  funext name
  rw [registered, settingIn]
  cases hlast : lastArg set name with
  | none => rw [findOption_registerArgs_of_none hfile hok hlast, settingIn]
  | some arg =>
    obtain ⟨opt, hfind, htype, hvalues, -⟩ := findOption_registerArgs_of_some hfile hok hlast
    dsimp only
    rw [hfind, Option.map_some, htype, hvalues, Option.getD_some]

theorem lastArg_append (general test : List SbArg) (name : Text) :
    lastArg (general ++ test) name = (lastArg test name).or (lastArg general name) := by
  induction general with
  | nil => simp [lastArg]
  | cons arg general ih =>
    rw [cons_append, lastArg, lastArg, ih]
    cases lastArg test name with
    | none | some a => rfl

theorem lastArg_alike {arg : SbArg} (h : lastArg set name = some arg) :
    arg ∈ set ∧ Alike arg.name name := by
  induction set with
  | nil => cases h
  | cons first set ih =>
    rw [lastArg] at h
    split at h
    · rename_i a hlast
      cases h
      exact ⟨mem_cons_of_mem _ (ih hlast).1, (ih hlast).2⟩
    · split at h
      · rename_i halike
        cases h
        exact ⟨mem_cons_self, halike⟩
      · cases h

theorem lastArg_congr {a b : Text} (h : Alike a b) (set : List SbArg) :
    lastArg set a = lastArg set b := by
  induction set with
  | nil => rfl
  | cons arg set ih =>
    have hiff : Alike arg.name a ↔ Alike arg.name b := by
      unfold Alike at h ⊢
      rw [h]
    rw [lastArg, lastArg, ih]
    simp only [hiff]

theorem registered_congr {a b : Text} (h : Alike a b) (options : Registry) (set : List SbArg) :
    registered options set a = registered options set b := by
  rw [registered, registered, lastArg_congr h, settingIn, settingIn, findOption_congr h]

end Registration

/-- Two sets that can be registered one after the other, and neither has callbacks, takes a
name of the other or reads a file.  Other options may have been registered before. -/
structure Registers (files : Files) (options : Registry)
    (general test : List SbArg) : Prop where
  before : NoCallbacks options
  callbacks : ∀ a ∈ general ++ test, a.validate = none
  readsNoFile : ∀ a ∈ general ++ test, readsFile a.type a.value = false
  generalOk : (sbRegisterArgSet files options general).2 = true
  testOk : (sbRegisterArgSet files options test).2 = true
  disjoint : ∀ b ∈ test, findOption options b.name = none ∧ ∀ a ∈ general, ¬Alike a.name b.name

/-! ### Both passes -/

section Both

variable {general test : List SbArg} (hsets : Registers files options general test)

/-- The type of an option once the first set is registered. -/
def firstType (options : Registry) (general : List SbArg) (name : Text) : Option SbArgType :=
  (registered options general name).map (·.1)

/-- The type of an option once both sets are registered. -/
def finalType (options : Registry) (general test : List SbArg) (name : Text) :
    Option SbArgType :=
  (registered options (general ++ test) name).map (·.1)

theorem registered_of_test {arg : SbArg} (h : lastArg test name = some arg) :
    registered options (general ++ test) name = registered options' test name := by
  rw [registered, registered, lastArg_append, h]
  rfl

theorem registered_of_not_test (h : lastArg test name = none) :
    registered options (general ++ test) name = registered options general name := by
  rw [registered, lastArg_append, h]
  rfl

include hsets

/-- A test's option is unknown before its set is registered. -/
theorem Registers.unknown {arg : SbArg} (h : lastArg test name = some arg) :
    registered options general name = none := by
  obtain ⟨hmem, halike⟩ := lastArg_alike h
  obtain ⟨hbefore, hdisjoint⟩ := hsets.disjoint arg hmem
  rw [registered]
  cases hlast : lastArg general name with
  | none =>
    rw [settingIn, ← findOption_congr halike, hbefore]
    rfl
  | some a =>
    obtain ⟨hmem', halike'⟩ := lastArg_alike hlast
    exact absurd (halike'.trans halike.symm) (hdisjoint a hmem')

/-- What is refused in the end has been refused by the first pass. -/
theorem Registers.left_of_refused {arg : Text}
    (h : leftOver (finalType options general test) arg = true) :
    leftOver (firstType options general) arg = true := by
  obtain ⟨harg, hrefuses⟩ := Bool.and_eq_true_iff.mp h
  refine Bool.and_eq_true_iff.mpr ⟨harg, ?_⟩
  cases hlast : lastArg test (optionName arg) with
  | none => rwa [finalType, registered_of_not_test hlast] at hrefuses
  | some a =>
    rw [firstType, hsets.unknown hlast]
    rfl

/-- What the arguments left by the first pass say of an option, if none is refused in the
end. -/
theorem Registers.lastGiven_left
    (hnone : ∀ arg ∈ argv, leftOver (finalType options general test) arg = false) (name : Text) :
    lastGiven (argv.filter (leftOver (firstType options general))) name
      = if (lastArg test name).isSome then lastGiven argv name else none := by
  have htype {arg : Text} (hgives : gives name arg = true) (set : List SbArg) :
      registered options set (optionName arg) = registered options set name :=
    registered_congr (of_decide_eq_true (Bool.and_eq_true_iff.mp hgives).2) _ _
  unfold lastGiven
  rw [filter_filter]
  cases hlast : lastArg test name with
  | some a =>
    have hall : ∀ arg ∈ argv, (gives name arg &&
        leftOver (firstType options general) arg)
          = gives name arg := by
      intro arg _
      cases hgives : gives name arg with
      | false => rfl
      | true =>
        rw [leftOver, firstType, htype hgives, hsets.unknown hlast,
          (Bool.and_eq_true_iff.mp hgives).1]
        rfl
    rw [filter_congr hall]
    rfl
  | none =>
    have hall : ∀ arg ∈ argv, ¬(gives name arg &&
        leftOver (firstType options general) arg) = true := by
      intro arg harg h
      obtain ⟨hgives, hleft⟩ := Bool.and_eq_true_iff.mp h
      have hfinal := hnone arg harg
      rw [leftOver, finalType, htype hgives, registered_of_not_test hlast] at hfinal
      rw [leftOver, firstType, htype hgives, hfinal] at hleft
      cases hleft
    rw [filter_eq_nil_iff.mpr hall]
    rfl

/-- The second set is registered after the first pass, and no type is what it was not to be. -/
theorem Registers.second {options₁ : Registry}
    (hpassed : Passed argv (sbRegisterArgSet files options general).1 options₁) :
    (sbRegisterArgSet files options₁ test).2 = true ∧
      NoCallbacks (sbRegisterArgSet files options₁ test).1 ∧
      ∀ name, settingIn (sbRegisterArgSet files options₁ test).1 name
        = if (lastArg test name).isSome then registered options (general ++ test) name
          else overridden argv name (registered options (general ++ test) name) := by
  have hmem {a : SbArg} (ha : a ∈ test) : a ∈ general ++ test := mem_append_right _ ha
  have hmem' {a : SbArg} (ha : a ∈ general) : a ∈ general ++ test := mem_append_left _ ha
  have hok : (sbRegisterArgSet files options₁ test).2 = true := by
    rw [← hsets.testOk]
    exact registerArgs_snd_congr fun m => (hpassed.callbacks m).trans (hsets.before m).symm
  obtain ⟨-, hgeneral⟩ := settingIn_register (fun a ha => hsets.callbacks a (hmem' ha))
    (fun a ha => hsets.readsNoFile a (hmem' ha)) hsets.before hsets.generalOk
  obtain ⟨hcallbacks, htest⟩ := settingIn_register (fun a ha => hsets.callbacks a (hmem ha))
    (fun a ha => hsets.readsNoFile a (hmem ha)) hpassed.callbacks hok
  refine ⟨hok, hcallbacks, fun name => ?_⟩
  rw [htest]
  cases hlast : lastArg test name with
  | some arg => exact (registered_of_test hlast).symm
  | none =>
    rw [registered_of_not_test hlast, ← hgeneral, registered, hlast]
    exact hpassed.settings name

theorem Registers.second_pass {options₁ : Registry}
    (hfile : ∀ arg ∈ argv, isOption arg = true →
      finalType options general test (optionName arg) ≠ some .file)
    (hpassed : Passed argv (sbRegisterArgSet files options general).1 options₁) :
    ((∃ e, parseTestArguments files test options₁
        (argv.filter (leftOver (firstType options general))) = .error e)
      ↔ ∃ arg ∈ argv, leftOver (finalType options general test) arg = true) ∧
    ∀ options', parseTestArguments files test options₁
        (argv.filter (leftOver (firstType options general)))
          = .ok options' →
      ∀ name, settingIn options' name
        = overridden argv name (registered options (general ++ test) name) := by
  obtain ⟨hok, hcallbacks, hsettings⟩ := hsets.second hpassed
  have htypes : typeIn (sbRegisterArgSet files options₁ test).1
      = finalType options general test := by
    funext name
    rw [typeIn, hsettings]
    split
    · rfl
    · rw [map_fst_overridden]
      rfl
  have hleft (arg : Text) (harg : arg ∈ argv.filter
      (leftOver (firstType options general))) : arg ∈ argv :=
    mem_of_mem_filter harg
  rw [parseTestArguments_of_ok hok]
  by_cases hrefused : ∃ arg ∈ argv, leftOver (finalType options general test) arg = true
  · obtain ⟨arg, harg, hrefuses⟩ := hrefused
    obtain ⟨e, he⟩ := parseTestLoop_error htypes hcallbacks (fun a ha => hfile a (hleft a ha))
      ⟨arg, mem_filter.mpr ⟨harg, hsets.left_of_refused hrefuses⟩, hrefuses⟩
    refine ⟨iff_of_true ⟨e, he⟩ ⟨arg, harg, hrefuses⟩, fun options' h => ?_⟩
    cases he.symm.trans h
  · have hnone : ∀ arg ∈ argv, leftOver (finalType options general test) arg = false := by
      intro arg harg
      rw [Bool.eq_false_iff]
      exact fun h => hrefused ⟨arg, harg, h⟩
    obtain ⟨options₂, hloop, hpassed₂⟩ := parseTestLoop_ok htypes hcallbacks
      (fun a ha => hfile a (hleft a ha)) fun a ha => hnone a (hleft a ha)
    refine ⟨iff_of_false (fun ⟨e, he⟩ => (nomatch he.symm.trans hloop)) hrefused, ?_⟩
    intro options' h name
    cases hloop.symm.trans h
    have hgiven := hsets.lastGiven_left hnone name
    rw [hpassed₂.settings, hsettings, overridden, hgiven]
    -- A test's option gets its value in the second pass, and any other has it by now.
    cases lastArg test name with
    | some a | none => rfl

/-- The two stages fail if an argument is refused or one too many, and otherwise leave every
option with the last value given for it. -/
theorem Registers.processSets_spec (argv : List Text)
    (hfile : ∀ arg ∈ argv, isOption arg = true →
      finalType options general test (optionName arg) ≠ some .file) :
    ((∃ e, processSets files options general test argv = .error e)
      ↔ (∃ arg ∈ argv, leftOver (finalType options general test) arg = true) ∨
        2 < (positional argv).length) ∧
    ∀ options', processSets files options general test argv = .ok options' →
      ∀ name, settingIn options' name
        = overridden argv name (registered options (general ++ test) name) := by
  have hmem {a : SbArg} (ha : a ∈ general) : a ∈ general ++ test := mem_append_left _ ha
  obtain ⟨hcallbacks, hgeneral⟩ := settingIn_register (fun a ha => hsets.callbacks a (hmem ha))
    (fun a ha => hsets.readsNoFile a (hmem ha)) hsets.before hsets.generalOk
  have htypes : typeIn (sbRegisterArgSet files options general).1
      = firstType options general := by
    funext name
    rw [typeIn, hgeneral, firstType]
  have hparse := parseGeneralArguments_of_ok hsets.generalOk argv
  have hfirst : ∀ arg ∈ argv, isOption arg = true →
      firstType options general (optionName arg) ≠ some .file := by
    intro arg harg hoption
    cases hlast : lastArg test (optionName arg) with
    | none =>
      rw [firstType, ← registered_of_not_test hlast]
      exact hfile arg harg hoption
    | some a =>
      rw [firstType, hsets.unknown hlast]
      exact Option.some_ne_none _ ∘ Eq.symm
  by_cases hpositional : (positional argv).length ≤ 2
  · have hfree : (positional argv).length ≤ free none none := hpositional
    obtain ⟨options₁, hloop, hpassed⟩ := parseGeneralLoop_ok htypes hcallbacks hfirst hfree
    rw [processSets, hparse, hloop]
    have hsecond := hsets.second_pass hfile hpassed
    refine ⟨hsecond.1.trans ⟨.inl, ?_⟩, hsecond.2⟩
    rintro (h | h)
    · exact h
    · exact absurd hpositional (Nat.not_le_of_gt h)
  · have hmany : free none none < (positional argv).length := Nat.lt_of_not_le hpositional
    obtain ⟨e, he⟩ := parseGeneralLoop_error hmany
    rw [processSets, hparse, he]
    exact ⟨iff_of_true ⟨e, rfl⟩ (.inr hmany), nofun⟩

end Both

/-! ### The result -/

/-- A value that is none of the words for a flag. -/
def InvalidFlag (setting : Option Setting) (value : Option Text) : Prop :=
  ∃ default v, setting = some (.bool, default) ∧ value = some v ∧ v ∉ onWords ∧ v ∉ offWords

/-- Only a flag refuses values, apart from the type that ends a set. -/
theorem valuesOf_isNone_iff {type : SbArgType} (htype : type ≠ .null) (value : Option Text) :
    (valuesOf type value).isNone = true
      ↔ type = .bool ∧ ∃ v, value = some v ∧ v ∉ onWords ∧ v ∉ offWords := by
  cases value with
  | none => cases type <;> simp [valuesOf]
  | some v =>
    by_cases hv : v = []
    · subst hv
      cases type <;> simp [valuesOf]
      decide
    · cases type <;> simp [valuesOf, hv] at htype ⊢
      split
      · simp_all
      · simp_all

theorem leftOver_iff {options : Registry} {general test : List SbArg} {arg : Text}
    (htype : finalType options general test (optionName arg) ≠ some .null) :
    leftOver (finalType options general test) arg = true
      ↔ isOption arg = true ∧
        (registered options (general ++ test) (optionName arg) = none ∨
          InvalidFlag (registered options (general ++ test) (optionName arg))
            (optionArgument arg)) := by
  rw [leftOver, Bool.and_eq_true_iff]
  unfold finalType refuses InvalidFlag at *
  cases hsetting : registered options (general ++ test) (optionName arg) with
  | none => simp
  | some setting =>
    obtain ⟨type, default⟩ := setting
    rw [hsetting] at htype
    have hne : type ≠ .null := fun h => htype (congrArg some h)
    show _ ∧ (valuesOf type (optionArgument arg)).isNone = true ↔ _
    rw [valuesOf_isNone_iff hne]
    simp

/-- **Two stages are as good as one.** Take two sets that can be registered, and arguments of
which none reads a file.  The two stages fail exactly if an option is unknown to both sets, or
has a value that is none for a flag, or if there is a third argument that is no option.
Otherwise every option has the value of its last occurrence, and its default if there is none.
How options and other arguments are mixed makes no difference. -/
theorem two_stages_as_one (files : Files) (options : Registry)
    (general test : List SbArg) (argv : List Text)
    (hsets : Registers files options general test)
    (hargs : ∀ arg ∈ argv, isOption arg = true →
      finalType options general test (optionName arg) ∉ [some .file, some .null]) :
    ((∃ e, processSets files options general test argv = .error e) ↔
      (∃ arg ∈ argv, isOption arg = true ∧
        registered options (general ++ test) (optionName arg) = none) ∨
      (∃ arg ∈ argv, isOption arg = true ∧
        InvalidFlag (registered options (general ++ test) (optionName arg))
          (optionArgument arg)) ∨
      2 < (positional argv).length) ∧
    (∀ options', processSets files options general test argv = .ok options' →
      ∀ name, settingIn options' name
        = overridden argv name (registered options (general ++ test) name)) ∧
    ∀ argv', (∀ name, argv'.filter (gives name) = argv.filter (gives name)) →
      (positional argv').length = (positional argv).length →
      ((∃ e, processSets files options general test argv' = .error e)
        ↔ ∃ e, processSets files options general test argv = .error e) ∧
      ∀ options₁ options₂, processSets files options general test argv = .ok options₁ →
        processSets files options general test argv' = .ok options₂ →
        settingIn options₂ = settingIn options₁ := by
  have hfile (arg : Text) (harg : arg ∈ argv) (hoption : isOption arg = true) :
      finalType options general test (optionName arg) ≠ some .file :=
    fun h => hargs arg harg hoption (h ▸ mem_cons_self)
  have hnull (arg : Text) (harg : arg ∈ argv) (hoption : isOption arg = true) :
      finalType options general test (optionName arg) ≠ some .null :=
    fun h => hargs arg harg hoption (h ▸ mem_cons_of_mem _ mem_cons_self)
  obtain ⟨herror, hsettings⟩ := hsets.processSets_spec argv hfile
  refine ⟨?_, hsettings, ?_⟩
  · rw [herror, ← or_assoc, ← exists_or]
    refine or_congr_left (exists_congr fun arg => ?_)
    rw [← and_or_left, ← and_or_left]
    refine and_congr_right fun harg => ?_
    by_cases hoption : isOption arg = true
    · exact leftOver_iff (hnull arg harg hoption)
    · rw [leftOver, Bool.eq_false_iff.mpr hoption]
      simp
  · intro argv' hsame hcount
    have hmem (arg : Text) (hoption : isOption arg = true) : arg ∈ argv' ↔ arg ∈ argv := by
      have hgives : gives (optionName arg) arg = true :=
        Bool.and_eq_true_iff.mpr ⟨hoption, decide_eq_true (Alike.refl _)⟩
      have hiff : arg ∈ argv'.filter (gives (optionName arg))
          ↔ arg ∈ argv.filter (gives (optionName arg)) := by rw [hsame]
      simpa only [mem_filter, hgives, and_true] using hiff
    obtain ⟨herror', hsettings'⟩ := hsets.processSets_spec argv'
      fun arg harg hoption => hfile arg ((hmem arg hoption).mp harg) hoption
    refine ⟨?_, fun options₁ options₂ h₁ h₂ => ?_⟩
    · rw [herror, herror', hcount]
      refine or_congr_left (exists_congr fun arg => and_congr_left fun hleft => ?_)
      exact hmem arg (Bool.and_eq_true_iff.mp hleft).1
    · funext name
      rw [hsettings' _ h₂, hsettings _ h₁, overridden, overridden, lastGiven, lastGiven, hsame]

/-- `sysbench --threads=4 fileio --file-num=5 run --threads=8` -/
def mixedArguments : List Text :=
  ["--threads=4".toList, "fileio".toList, "--file-num=5".toList, "run".toList,
    "--threads=8".toList]

def fileNumOption : List SbArg :=
  [⟨"file-num".toList, some "128".toList, .int, none⟩]

theorem two_stages_as_one_mixed :
    ∃ options', processSets (fun _ => none) [] generalArgs fileNumOption mixedArguments
        = .ok options' ∧
      ∀ name, settingIn options' name
        = overridden mixedArguments name (registered [] (generalArgs ++ fileNumOption) name) := by
  have hsets : Registers (fun _ => none) [] generalArgs fileNumOption :=
    ⟨fun _ => rfl, by decide, by decide, by decide +kernel, by decide +kernel, by decide⟩
  have hspec := two_stages_as_one (fun _ => none) [] generalArgs fileNumOption mixedArguments
    hsets (by decide +kernel)
  have hok : (processSets (fun _ => none) [] generalArgs fileNumOption mixedArguments).toBool
      = true := by decide +kernel
  cases hrun : processSets (fun _ => none) [] generalArgs fileNumOption mixedArguments with
  | error e =>
    rw [hrun] at hok
    exact nomatch hok
  | ok options' => exact ⟨options', rfl, hspec.2.1 options' hrun⟩

end Sysbench.Options
