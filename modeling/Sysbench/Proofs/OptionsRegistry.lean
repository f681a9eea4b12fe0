/-
The list of options is a map.

Its keys are the names with every dash replaced.  `add_option` stores a name in that form and
`opt_name_cmp` compares as if both names were in it, so that no two options of the list ever
share a key, however the names were spelled.  `OptionMap` says what the list is for, and every
call does to the list what it is meant to do to the map.  Only `remove_option` needs the keys
to be distinct for that: it takes out the first option it finds, and no more.
-/
import Sysbench.Proofs.OptionsLookup

namespace Sysbench.Options

open List Function

variable {files : Files} {options : Registry}

/-! ### Comparing names -/

/-- The comparison stops at the first terminator at the latest, and is 0 if it got there in both
names at once. -/
theorem optNameCmpBytes_cString {s₁ s₂ : Text} (h₁ : '\x00' ∉ s₁) (h₂ : '\x00' ∉ s₂) :
    ∃ r, optNameCmpBytes (cString s₁) (cString s₂) = some r ∧
      (r = 0 ↔ optNameCmp s₁ s₂ = true) := by
  have hdiff (c d : Char) : (c.toNat : ℤ) - d.toNat = 0 ↔ c = d := by
    rw [sub_eq_zero, Nat.cast_inj]
    exact ⟨fun h => Char.toNat_inj.mp h, fun h => h ▸ rfl⟩
  induction s₁ generalizing s₂ with
  | nil =>
    cases s₂ with
    | nil => exact ⟨0, rfl, iff_of_true rfl rfl⟩
    | cons d s₂ =>
      have hd : '\x00' ≠ d := fun h => h₂ (h ▸ mem_cons_self)
      refine ⟨_, rfl, ?_⟩
      rw [hdiff]
      exact iff_of_false hd Bool.false_ne_true
  | cons c s₁ ih =>
    have hc : c ≠ '\x00' := fun h => h₁ (h ▸ mem_cons_self)
    cases s₂ with
    | nil =>
      have hstop : ¬(c ≠ '\x00' ∧
          (c = '\x00' ∨ (c = '-' ∨ c = '_') ∧ ('\x00' = '-' ∨ '\x00' = '_'))) := by
        rintro ⟨-, h | ⟨-, h⟩⟩
        · exact hc h
        · exact absurd h (by decide)
      refine ⟨_, if_neg hstop, ?_⟩
      rw [hdiff]
      exact iff_of_false hc Bool.false_ne_true
    | cons d s₂ =>
      obtain ⟨r, hr, hzero⟩ := ih (fun h => h₁ (mem_cons_of_mem _ h))
        fun h => h₂ (mem_cons_of_mem _ h)
      by_cases halike : c = d ∨ (c = '-' ∨ c = '_') ∧ (d = '-' ∨ d = '_')
      · refine ⟨r, (if_pos ⟨hc, halike⟩).trans hr, ?_⟩
        rw [hzero, optNameCmp, if_pos halike]
      · refine ⟨_, if_neg fun h => halike h.2, ?_⟩
        rw [hdiff, optNameCmp, if_neg halike]
        exact iff_of_false (fun h => halike (.inl h)) Bool.false_ne_true

/-! ### The map -/

/-- A name without dashes. -/
abbrev Key := { name : Text // convertDashes name = name }

def keyOf (name : Text) : Key :=
  ⟨convertDashes name, convertDashes_idem name⟩

theorem alike_val_iff (name : Text) (key : Key) : Alike name key.val ↔ key = keyOf name := by
  rw [Alike, key.property, Subtype.ext_iff, eq_comm]
  rfl

/-- What the list is for. -/
abbrev OptionMap := Key → Option SbOption

namespace OptionMap

/-- Change the option of that name, or a new one. -/
def edit (options : OptionMap) (name : Text) (change : SbOption → SbOption) : OptionMap :=
  update options (keyOf name)
    (some (change ((options (keyOf name)).getD (newOption name))))

def set (options : OptionMap) (name : Text) (value : Option Text) (type : SbArgType) :
    OptionMap × Bool :=
  let validate := (options (keyOf name)).bind (·.validate)
  (options.edit name fun opt =>
    { opt with type := type, values := assigned validate name value type },
    accepts validate name value type)

def register (validate : Option SbOptValidate) : OptionMap → List SbArg → OptionMap
  | options, [] => options
  | options, arg :: set =>
    match options.set arg.name arg.value arg.type with
    | (options, false) => options
    | (options, true) =>
      register validate (options.edit arg.name fun opt => { opt with validate := validate }) set

def remove (options : OptionMap) (name : Text) : OptionMap :=
  update options (keyOf name) none

def apply (options : OptionMap) : RegistryOp → OptionMap
  | .add name => options.edit name id
  | .set name value type => (options.set name value type).1
  | .register set => register (set.head?.bind (·.validate)) options set
  | .remove name => options.remove name

def run (ops : List RegistryOp) : OptionMap :=
  ops.foldl apply fun _ => none

end OptionMap

/-- What lookups see of a list. -/
def toMap (options : Registry) : OptionMap :=
  fun key => findOption options key.val

theorem toMap_keyOf (options : Registry) (name : Text) :
    toMap options (keyOf name) = findOption options name :=
  findOption_congr (convertDashes_idem name) options

variable {change : SbOption → SbOption}

/-- An edit, told by what lookups find after it. -/
theorem toMap_eq_edit {options options' : Registry} {name : Text}
    (hfind : ∀ m, findOption options' m
      = if Alike name m then some (change (current options name)) else findOption options m) :
    toMap options' = (toMap options).edit name change := by
  funext key
  rw [OptionMap.edit, toMap_keyOf]
  by_cases hkey : key = keyOf name
  · rw [hkey, update_self]
    exact (hfind _).trans (if_pos ((alike_val_iff name _).mpr rfl))
  · rw [update_of_ne hkey]
    exact (hfind _).trans (if_neg fun h => hkey ((alike_val_iff name key).mp h))

theorem toMap_editOption (hchange : ∀ opt, (change opt).name = opt.name) (options : Registry)
    (name : Text) : toMap (editOption options name change) = (toMap options).edit name change :=
  toMap_eq_edit (findOption_editOption hchange options name)

variable {value : Option Text} {type : SbArgType}

theorem toMap_setOption (files : Files) (hfile : readsFile type value = false)
    (options : Registry) (name : Text) :
    (toMap (setOption files options name value type).1,
        (setOption files options name value type).2) = (toMap options).set name value type := by
  have hvalidate : (toMap options (keyOf name)).bind (·.validate) = validateOf options name := by
    rw [toMap_keyOf, validateOf]
  rw [OptionMap.set, hvalidate, setOption_snd]
  refine Prod.ext ?_ rfl
  dsimp only
  refine toMap_eq_edit ?_
  exact findOption_setOption files hfile options name

theorem toMap_registerArgs {validate : Option SbOptValidate} {set : List SbArg}
    (hfile : ∀ a ∈ set, readsFile a.type a.value = false) (options : Registry) :
    toMap (registerArgs files validate options set).1
      = OptionMap.register validate (toMap options) set := by
  induction set generalizing options with
  | nil => rfl
  | cons arg set ih =>
    have hset := toMap_setOption files (hfile arg mem_cons_self) options arg.name
    rw [registerArgs, OptionMap.register, ← hset]
    cases setOption files options arg.name arg.value arg.type with
    | mk options' ok =>
      cases ok with
      | false => rfl
      | true =>
        rw [ih fun a ha => hfile a (mem_cons_of_mem _ ha),
          toMap_editOption (by intro; rfl)]

/-! ### Distinct keys -/

/-- No two options have the same name up to dashes. -/
def DistinctNames (options : Registry) : Prop :=
  (options.map fun opt => convertDashes opt.name).Nodup

theorem optNameCmp_key (name : Text) (opt : SbOption) :
    optNameCmp opt.name name = true ↔ convertDashes opt.name = convertDashes name :=
  optNameCmp_iff opt.name name

theorem DistinctNames.editOption (hchange : ∀ opt, (change opt).name = opt.name) (name : Text)
    (h : DistinctNames options) : DistinctNames (editOption options name change) :=
  FirstMatch.nodup_map_edit (optNameCmp_key name) (fun opt => by rw [hchange])
    (convertDashes_idem name) h

theorem DistinctNames.removeOption (name : Text) (h : DistinctNames options) :
    DistinctNames (removeOption options name).1 :=
  h.sublist ((eraseP_sublist ..).map _)

theorem toMap_removeOption (h : DistinctNames options) (name : Text) :
    toMap (removeOption options name).1 = (toMap options).remove name := by
  funext key
  rw [OptionMap.remove]
  by_cases hkey : key = keyOf name
  · rw [hkey, update_self, toMap_keyOf]
    exact FirstMatch.find?_eraseP_self (optNameCmp_key name) h
  · rw [update_of_ne hkey]
    refine FirstMatch.find?_eraseP_of_disjoint (p := fun opt : SbOption => optNameCmp opt.name name)
      (q := fun opt : SbOption => optNameCmp opt.name key.val) ?_ _
    intro opt hopt
    rw [Bool.eq_false_iff]
    intro hother
    rw [optNameCmp_iff] at hopt hother
    exact hkey ((alike_val_iff name key).mp (hopt.symm.trans hother))

section Edits

variable {P : Registry → Prop}
  (hedit : ∀ options name change, (∀ opt : SbOption, (change opt).name = opt.name) → P options →
    P (editOption options name change))

include hedit

/-- What every change of one option keeps, a configuration file keeps. -/
theorem readConfigFile_keeps (filename : Text) (h : P options) :
    P (readConfigFile files options filename) := by
  have hline (options : Registry) (buf : Text) (h : P options) : P (readLine options buf).1 := by
    unfold readLine
    split
    · exact h
    · exact hedit _ _ _ (by intro; rfl) h
  have hconfig (bufs : List Text) (options : Registry) (h : P options) :
      P (readConfig options bufs) := by
    induction bufs generalizing options with
    | nil => exact h
    | cons buf bufs ih =>
      have hnext := hline options buf h
      rw [readConfig]
      split
      · rename_i heq
        rw [heq] at hnext
        exact ih _ hnext
      · rename_i heq
        rwa [heq] at hnext
  unfold readConfigFile
  split
  · exact h
  · exact hconfig _ _ h

theorem setOption_keeps (files : Files) (name : Text) (value : Option Text)
    (type : SbArgType) (h : P options) : P (setOption files options name value type).1 := by
  have hcleared : P (editOption options name fun opt => { opt with values := [], type := type }) :=
    hedit _ _ _ (by intro; rfl) h
  unfold setOption
  dsimp only
  split
  · exact hcleared
  · split
    · exact hcleared
    · rename_i values _
      have hfilled :=
        hedit _ name (fun opt => { opt with values := values }) (by intro; rfl) hcleared
      split
      · exact readConfigFile_keeps hedit _ hfilled
      · exact hfilled

theorem registerArgs_keeps (validate : Option SbOptValidate) (set : List SbArg) (h : P options) :
    P (registerArgs files validate options set).1 := by
  induction set generalizing options with
  | nil => exact h
  | cons arg set ih =>
    have hset := setOption_keeps hedit files arg.name arg.value arg.type h
    rw [registerArgs]
    split
    · rename_i heq
      rwa [heq] at hset
    · rename_i heq
      rw [heq] at hset
      exact ih (hedit _ _ _ (by intro; rfl) hset)

end Edits

theorem DistinctNames.applyOp (h : DistinctNames options) (op : RegistryOp) :
    DistinctNames (applyOp files options op) := by
  have hedit : ∀ options name change, (∀ opt : SbOption, (change opt).name = opt.name) →
      DistinctNames options → DistinctNames (Options.editOption options name change) :=
    fun _ name _ hchange h => h.editOption hchange name
  cases op with
  | add name => exact h.editOption (by intro; rfl) name
  | set name value type => exact setOption_keeps hedit files name value type h
  | register set => exact registerArgs_keeps hedit _ set h
  | remove name => exact h.removeOption name

/-! ### Sequences of calls -/

/-- The call reads no configuration file. -/
def RegistryOp.ReadsNoFile : RegistryOp → Prop
  | .set _ value type => readsFile type value = false
  | .register args => ∀ a ∈ args, readsFile a.type a.value = false
  | _ => True

/-- One call does to the map what it is meant to do. -/
theorem toMap_applyOp (h : DistinctNames options) {op : RegistryOp} (hfile : op.ReadsNoFile) :
    toMap (applyOp files options op) = (toMap options).apply op := by
  cases op with
  | add name => exact toMap_editOption (by intro; rfl) options name
  | set name value type => exact congrArg Prod.fst (toMap_setOption files hfile options name)
  | register set => exact toMap_registerArgs hfile options
  | remove name => exact toMap_removeOption h name

theorem runOps_refines (files : Files) (ops : List RegistryOp) :
    DistinctNames (runOps files ops) ∧
      ((∀ op ∈ ops, op.ReadsNoFile) → toMap (runOps files ops) = OptionMap.run ops) := by
  induction ops using List.reverseRecOn with
  | nil => exact ⟨nodup_nil, fun _ => rfl⟩
  | append_singleton ops op ih =>
    obtain ⟨hdistinct, hmap⟩ := ih
    rw [runOps, OptionMap.run, foldl_concat, foldl_concat]
    refine ⟨hdistinct.applyOp op, fun hfile => ?_⟩
    have hbefore := hmap fun op' hop' => hfile op' (mem_append_left _ hop')
    rw [← OptionMap.run, ← hbefore]
    exact toMap_applyOp hdistinct (hfile op (mem_append_right _ mem_cons_self))

/-! ### Setting one option -/

/-- The options with another name. -/
def others (name : Text) (options : Registry) : Registry :=
  options.filter fun opt => !optNameCmp opt.name name

theorem others_editOption (hchange : ∀ opt, (change opt).name = opt.name) (options : Registry)
    (name : Text) : others name (editOption options name change) = others name options := by
  have hfresh : optNameCmp (newOption name).name name = true :=
    (optNameCmp_iff _ _).mpr (convertDashes_idem name)
  exact FirstMatch.filter_edit (p := fun opt => optNameCmp opt.name name)
    (fun opt => by rw [hchange]) hfresh options

theorem others_setOption (hfile : readsFile type value = false) (options : Registry) (name : Text) :
    others name (setOption files options name value type).1 = others name options := by
  have hcleared : others name
      (editOption options name fun opt => { opt with values := [], type := type })
        = others name options := others_editOption (by intro; rfl) _ _
  unfold setOption
  dsimp only
  split
  · exact hcleared
  · split
    · exact hcleared
    · rw [hfile]
      exact (others_editOption (by intro; rfl) _ _).trans hcleared

theorem findOption_alike {name : Text} {opt : SbOption} (h : findOption options name = some opt) :
    convertDashes opt.name = convertDashes name := by
  have hmatch := List.find?_some h
  exact (optNameCmp_iff _ _).mp hmatch

/-- What a lookup finds once `set_option` has accepted a value. -/
theorem findOption_of_accepted {name m : Text} (hfile : readsFile type value = false)
    (hok : (setOption files options name value type).2 = true) (halike : Alike name m) :
    ∃ opt, findOption (setOption files options name value type).1 m = some opt ∧
      opt.type = type ∧ valuesOf type value = some opt.values := by
  rw [setOption_snd] at hok
  obtain ⟨values, hvalues⟩ := Option.isSome_iff_exists.mp (Bool.and_eq_true_iff.mp hok).2
  refine ⟨_, (findOption_setOption files hfile options name m).trans (if_pos halike), rfl, ?_⟩
  rw [assigned, if_pos hok, hvalues, Option.getD_some]

/-- **The registry is a map whose keys are the names up to dashes and underscores.** After any
sequence of calls no two options have the same key, and lookups see the map that the calls are
meant to build.  Names are compared by their keys, within their terminators.  Once `set_option`
has accepted a value, a lookup under any spelling of the name finds it, and every other option
is in the list as before. -/
theorem registry_is_map (files : Files) (ops : List RegistryOp) :
    ((runOps files ops).map fun opt => convertDashes opt.name).Nodup ∧
    ((∀ op ∈ ops, op.ReadsNoFile) →
      ∀ m, findOption (runOps files ops) m = OptionMap.run ops (keyOf m)) ∧
    (∀ s₁ s₂ : Text, '\x00' ∉ s₁ → '\x00' ∉ s₂ →
      ∃ r, optNameCmpBytes (cString s₁) (cString s₂) = some r ∧
        (r = 0 ↔ convertDashes s₁ = convertDashes s₂)) ∧
    ∀ n value type, type ≠ .file →
      (setOption files (runOps files ops) n value type).2 = true →
      (∀ m, convertDashes m = convertDashes n →
        ∃ opt, findOption (setOption files (runOps files ops) n value type).1 m = some opt ∧
          convertDashes opt.name = convertDashes n ∧ opt.type = type ∧
          valuesOf type value = some opt.values) ∧
      others n (setOption files (runOps files ops) n value type).1
        = others n (runOps files ops) := by
  obtain ⟨hdistinct, hmap⟩ := runOps_refines files ops
  refine ⟨hdistinct, fun hfile m => ?_, fun s₁ s₂ h₁ h₂ => ?_, fun n value type htype hok => ?_⟩
  · rw [← hmap hfile, toMap_keyOf]
  · obtain ⟨r, hr, hzero⟩ := optNameCmpBytes_cString h₁ h₂
    exact ⟨r, hr, hzero.trans (optNameCmp_iff s₁ s₂)⟩
  · have hfile := readsFile_of_ne value htype
    refine ⟨fun m hm => ?_, others_setOption hfile _ _⟩
    obtain ⟨opt, hfind, htype', hvalues⟩ := findOption_of_accepted hfile hok hm.symm
    exact ⟨opt, hfind, (findOption_alike hfind).trans hm, htype', hvalues⟩

/-- `file-num` is added, and set under its other spelling. -/
theorem registry_is_map_two_spellings :
    findOption (runOps (fun _ => none) [.add "file-num".toList]) "file_num".toList
        = OptionMap.run [.add "file-num".toList] (keyOf "file_num".toList) ∧
      (∃ r, optNameCmpBytes (cString "file-num".toList) (cString "file_num".toList) = some r ∧
        (r = 0 ↔ convertDashes "file-num".toList = convertDashes "file_num".toList)) ∧
      ∃ opt, findOption (setOption (fun _ => none)
          (runOps (fun _ => none) [.add "file-num".toList]) "file_num".toList
          (some "5".toList) .int).1 "file-num".toList = some opt ∧
        opt.type = .int ∧ valuesOf .int (some "5".toList) = some opt.values := by
  obtain ⟨-, hmap, hcmp, hset⟩ := registry_is_map (fun _ => none) [.add "file-num".toList]
  obtain ⟨opt, hfind, -, htype, hvalues⟩ :=
    (hset "file_num".toList (some "5".toList) .int (by decide) (by decide +kernel)).1
      "file-num".toList (by decide +kernel)
  refine ⟨hmap ?_ _, hcmp _ _ (by decide) (by decide), opt, hfind, htype, hvalues⟩
  intro op hop
  rw [mem_singleton.mp hop]
  trivial

end Sysbench.Options
