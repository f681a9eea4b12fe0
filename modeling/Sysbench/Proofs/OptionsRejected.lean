/-
What a rejected setting leaves behind.

`set_option` takes the values of its option away and gives it the new type before it looks
at the value, so a call that fails has emptied the option: nothing is lost only if there
was nothing.  `read_config` stores line after line, and when it gives up at a quote that is
not closed, it has stored all lines before that one and the values in front of the quote.

A file is read here as the sequence of its entries, one for each line with an equals sign,
up to the line that ends the reading.  An entry replaces the values of its option, so of
several entries for one option the last one counts, and reading gives the list back exactly
if each of these says what its option holds already (`applyEntries_eq_self_iff`).
-/
import Sysbench.Proofs.OptionsLookup

namespace Sysbench.Options

open List

variable {files : Files} {options : Registry}

/-! ### A rejected value -/

theorem setOption_of_refused {name : Text} {value : Option Text} {type : SbArgType}
    (h : (setOption files options name value type).2 = false) :
    (setOption files options name value type).1
      = editOption options name fun opt => { opt with values := [], type := type } := by
  unfold setOption at h ⊢
  dsimp only at h ⊢
  split at h
  · rename_i hreject
    rw [if_pos hreject]
  · rename_i haccept
    rw [if_neg haccept]
    cases hvalues : valuesOf type value with
    | none => rfl
    | some values =>
      simp only [hvalues] at h
      split at h
      · cases h
      · cases h

theorem setOption_of_refused_eq_self_iff {name : Text} {value : Option Text} {type : SbArgType}
    {opt : SbOption} (hopt : findOption options name = some opt)
    (h : (setOption files options name value type).2 = false) :
    (setOption files options name value type).1 = options ↔ opt.values = [] ∧ opt.type = type := by
  rw [setOption_of_refused h, editOption, FirstMatch.edit_eq_self_iff hopt]
  obtain ⟨name', type', values', validate'⟩ := opt
  simp only [SbOption.mk.injEq, true_and, and_true]
  constructor
  · rintro ⟨rfl, rfl⟩
    exact ⟨rfl, rfl⟩
  · rintro ⟨rfl, rfl⟩
    exact ⟨rfl, rfl⟩

/-! ### A file as a sequence of entries -/

/-- What a line says: a name, its values, and whether the last quote was closed. -/
def configEntry (buf : Text) : Option (Text × List Text × Bool) :=
  match buf.span (· ≠ '=') with
  | (_, []) => none
  | (name, _ :: tmp) => some (name, scanValues .between tmp)

/-- The entries that `read_config` stores. -/
def configEntries : List Text → List (Text × List Text)
  | [] => []
  | buf :: bufs =>
    match configEntry buf with
    | none => configEntries bufs
    | some (name, values, true) => (name, values) :: configEntries bufs
    | some (name, values, false) => [(name, values)]

def applyEntries (options : Registry) (entries : List (Text × List Text)) : Registry :=
  FirstMatch.edits (fun e opt => optNameCmp opt.name e.1) (fun e => newOption e.1)
    (fun e opt => { opt with values := e.2 }) entries options

theorem readLine_eq (options : Registry) (buf : Text) :
    readLine options buf = match configEntry buf with
      | none => (options, true)
      | some (name, values, ok) => (applyEntries options [(name, values)], ok) := by
  unfold readLine configEntry
  generalize buf.span (· ≠ '=') = parts
  obtain ⟨name, rest⟩ := parts
  cases rest with
  | nil => rfl
  | cons _ tmp => rfl

theorem readConfig_eq_applyEntries (options : Registry) (bufs : List Text) :
    readConfig options bufs = applyEntries options (configEntries bufs) := by
  induction bufs generalizing options with
  | nil => rfl
  | cons buf bufs ih =>
    rw [readConfig, readLine_eq, configEntries]
    cases configEntry buf with
    | none => exact ih options
    | some entry =>
      obtain ⟨name, values, ok⟩ := entry
      cases ok with
      | true => exact ih _
      | false => rfl

/-- The values of the last entry for an option. -/
def lastEntry (entries : List (Text × List Text)) (name : Text) : Option (List Text) :=
  (entries.filter fun e => Alike e.1 name).getLast?.map (·.2)

/-- What entries do to one option: the last one counts. -/
theorem foldl_values (entries : List (Text × List Text)) (opt : SbOption) :
    entries.foldl (fun opt e => { opt with values := e.2 }) opt
      = { opt with values := (entries.getLast?.map (·.2)).getD opt.values } := by
  induction entries using reverseRecOn with
  | nil => rfl
  | append_singleton entries e ih => simp [ih]

theorem applyEntries_cons (entries : List (Text × List Text)) (opt : SbOption)
    (options : Registry) :
    applyEntries (opt :: options) entries
      = { opt with values := (lastEntry entries opt.name).getD opt.values }
        :: applyEntries options (entries.filter fun e => !decide (Alike e.1 opt.name)) := by
  have hmatch : ∀ e : Text × List Text, optNameCmp opt.name e.1 = decide (Alike e.1 opt.name) := by
    intro e
    rw [Bool.eq_iff_iff, optNameCmp_iff, decide_eq_true_iff]
    exact eq_comm
  unfold applyEntries lastEntry
  rw [FirstMatch.edits_cons
    (m := fun (e : Text × List Text) (opt : SbOption) => optNameCmp opt.name e.1)
    (g := fun e opt => { opt with values := e.2 }) (fun _ _ _ => rfl), foldl_values]
  simp only [hmatch]

theorem lastEntry_congr {name other : Text} (h : Alike name other)
    (entries : List (Text × List Text)) : lastEntry entries name = lastEntry entries other := by
  unfold lastEntry
  congr 2
  refine filter_congr fun e _ => ?_
  rw [decide_eq_decide]
  exact ⟨fun he => he.trans h, fun he => he.trans h.symm⟩

theorem lastEntry_filter_of_not_alike {name other : Text} (h : ¬Alike other name)
    (entries : List (Text × List Text)) :
    lastEntry (entries.filter fun e => !decide (Alike e.1 other)) name
      = lastEntry entries name := by
  unfold lastEntry
  rw [filter_filter]
  congr 2
  refine filter_congr fun e _ => ?_
  by_cases he : Alike e.1 name
  · have hne : ¬Alike e.1 other := fun ho => h (ho.symm.trans he)
    simp [he, hne]
  · simp [he]

theorem lastEntry_isSome {entries : List (Text × List Text)} {e : Text × List Text}
    (he : e ∈ entries) : ∃ values, lastEntry entries e.1 = some values := by
  have hne : (entries.filter fun e' => Alike e'.1 e.1) ≠ [] := by
    apply ne_nil_of_mem
    exact mem_filter.mpr ⟨he, decide_eq_true (Alike.refl e.1)⟩
  exact ⟨_, by rw [lastEntry, getLast?_eq_some_getLast hne, Option.map_some]⟩

/-- The last entry for each option says what the option holds. -/
def SaysNothingNew (options : Registry) (entries : List (Text × List Text)) : Prop :=
  ∀ name values, lastEntry entries name = some values →
    ∃ opt, findOption options name = some opt ∧ opt.values = values

theorem saysNothingNew_nil_iff (entries : List (Text × List Text)) :
    SaysNothingNew [] entries ↔ entries = [] := by
  constructor
  · intro h
    by_contra hne
    obtain ⟨e, he⟩ := exists_mem_of_ne_nil entries hne
    obtain ⟨values, hvalues⟩ := lastEntry_isSome he
    obtain ⟨opt, hopt, -⟩ := h e.1 values hvalues
    cases hopt
  · rintro rfl name values h
    cases h

theorem saysNothingNew_cons_iff (opt : SbOption) (options : Registry)
    (entries : List (Text × List Text)) :
    SaysNothingNew (opt :: options) entries ↔
      (∀ values, lastEntry entries opt.name = some values → opt.values = values) ∧
      SaysNothingNew options (entries.filter fun e => !decide (Alike e.1 opt.name)) := by
  have hfirst : ∀ {name}, Alike opt.name name → findOption (opt :: options) name = some opt :=
    fun h => (findOption_cons opt options _).trans (if_pos h)
  have hrest : ∀ {name}, ¬Alike opt.name name →
      findOption (opt :: options) name = findOption options name :=
    fun h => (findOption_cons opt options _).trans (if_neg h)
  constructor
  · intro h
    constructor
    · intro values hvalues
      obtain ⟨opt', hopt', heq⟩ := h opt.name values hvalues
      rw [hfirst (Alike.refl _), Option.some.injEq] at hopt'
      rw [hopt', heq]
    · intro name values hvalues
      have hne : ¬Alike opt.name name := by
        intro halike
        have hnone : (entries.filter fun e => !decide (Alike e.1 opt.name)).filter
            (fun e => Alike e.1 name) = [] := by
          refine filter_eq_nil_iff.mpr fun e he => ?_
          have hother := (mem_filter.mp he).2
          simp only [Bool.not_eq_true', decide_eq_false_iff_not] at hother
          simpa using fun hc => hother (hc.trans halike.symm)
        rw [lastEntry, hnone] at hvalues
        cases hvalues
      rw [lastEntry_filter_of_not_alike hne] at hvalues
      obtain ⟨opt', hopt', heq⟩ := h name values hvalues
      exact ⟨opt', (hrest hne) ▸ hopt', heq⟩
  · rintro ⟨hopt, hothers⟩ name values hvalues
    by_cases halike : Alike opt.name name
    · exact ⟨opt, hfirst halike, hopt values ((lastEntry_congr halike entries).trans hvalues)⟩
    · rw [hrest halike]
      exact hothers name values ((lastEntry_filter_of_not_alike halike entries).trans hvalues)

/-- Entries give the list back exactly if they say what it holds.  The induction is on the
list: its first option sees the entries that are for it, the rest sees the others. -/
theorem applyEntries_eq_self_iff (options : Registry) (entries : List (Text × List Text)) :
    applyEntries options entries = options ↔ SaysNothingNew options entries := by
  induction options generalizing entries with
  | nil =>
    rw [saysNothingNew_nil_iff]
    exact FirstMatch.edits_nil_iff entries
  | cons opt options ih =>
    rw [applyEntries_cons, cons.injEq, ih, saysNothingNew_cons_iff]
    obtain ⟨name, type, values, validate⟩ := opt
    cases lastEntry entries name with
    | none => simp
    | some last => simp [eq_comm]

/-! ### Both ways of setting an option -/

/-- **Rejected settings.**  A `set_option` on a registered option that returns NULL leaves the
list as it was exactly if the option had no values and has its type already; a `read_config`
that returns NULL does so exactly if what it has stored until then says nothing new. -/
theorem rejected_settings_keep_iff (options : Registry) :
    (∀ (files : Files) (name : Text) (value : Option Text) (type : SbArgType)
        (opt : SbOption), findOption options name = some opt →
      (setOption files options name value type).2 = false →
        ((setOption files options name value type).1 = options
          ↔ opt.values = [] ∧ opt.type = type)) ∧
    ∀ bufs : List Text, readConfigReturns options bufs = false →
      (readConfig options bufs = options ↔ SaysNothingNew options (configEntries bufs)) := by
  constructor
  · intro files name value type opt hopt hnull
    exact setOption_of_refused_eq_self_iff hopt hnull
  · intro bufs _
    rw [readConfig_eq_applyEntries, applyEntries_eq_self_iff]

/-- `--debug=maybe` is refused and switches debugging off; a file whose second line has an open
quote sets the threads. -/
theorem rejected_settings_change :
    let debug : SbOption := ⟨"debug".toList, .bool, ["on".toList], none⟩
    let threads : SbOption := ⟨"threads".toList, .int, ["1".toList], none⟩
    setOption (fun _ => none) [debug, threads] "debug".toList (some "maybe".toList) .bool
        = ([{ debug with values := [] }, threads], false) ∧
      let bufs := ["threads=8\n".toList, "debug='on\n".toList]
      readConfigReturns [debug, threads] bufs = false ∧
        readConfig [debug, threads] bufs
          = [{ debug with values := [] }, { threads with values := ["8".toList] }] :=
  ⟨rfl, rfl, rfl⟩

end Sysbench.Options
