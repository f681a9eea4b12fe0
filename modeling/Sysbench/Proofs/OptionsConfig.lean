/-
What a configuration file can say that the command line says.

Both ways end in the same list of options, and everything is proved about lookups in it.

The file loses in three ways.  It stores the text of a value where the command line would
turn `off` into no value at all, so that a flag is set by its very mention.  A test's
options are registered after it has been read, and their defaults replace what it said.
And a line longer than the buffer of `read_config` is cut.
-/
import Mathlib.Data.List.TakeWhile
import Sysbench.Proofs.OptionsLookup

namespace Sysbench.Options

open List

variable {files : Files} {options : Registry} {opt : SbOption}
  {general options₁ : Registry}

/-! ### The file -/

/-- No blank, comma, quote, comment sign or equals sign. -/
def Plain (v : Text) : Prop :=
  ∀ c ∈ v, isSpace c = false ∧ c ≠ ',' ∧ c ≠ '\'' ∧ c ≠ '"' ∧ c ≠ '#' ∧ c ≠ '='

instance (v : Text) : Decidable (Plain v) :=
  List.decidableBAll _ v

/-- No blank, comma, quote or comment sign; unlike a `Plain` value it may hold an equals sign. -/
def Bare (v : Text) : Prop :=
  ∀ c ∈ v, isSpace c = false ∧ c ≠ ',' ∧ c ≠ '\'' ∧ c ≠ '"' ∧ c ≠ '#'

instance (v : Text) : Decidable (Bare v) :=
  List.decidableBAll _ v

/-- A value by itself; an empty one is none. -/
def stored (v : Text) : List Text :=
  if v = [] then [] else [v]

variable {v : Text}

theorem Plain.take (h : Plain v) (k : ℕ) : Plain (v.take k) :=
  fun c hc => h c (mem_of_mem_take hc)

theorem Plain.not_mem_equals (h : Plain v) : '=' ∉ v :=
  fun hc => (h _ hc).2.2.2.2.2 rfl

theorem Plain.not_mem_newline (h : Plain v) : '\n' ∉ v := by
  intro hc
  cases (h _ hc).1

theorem Plain.bare (h : Plain v) : Bare v := by
  intro c hc
  obtain ⟨hspace, hcomma, hsingle, hdouble, hcomment, -⟩ := h c hc
  exact ⟨hspace, hcomma, hsingle, hdouble, hcomment⟩

variable {name : Text}

theorem span_equals {rest : Text} (h : '=' ∉ name) :
    (name ++ '=' :: rest).span (· ≠ '=') = (name, '=' :: rest) := by
  have hall : ∀ c ∈ name, decide (c ≠ '=') = true := by
    intro c hc
    exact decide_eq_true fun heq => h (heq ▸ hc)
  rw [span_eq_takeWhile_dropWhile, takeWhile_append_of_pos hall,
    dropWhile_append_of_pos hall]
  simp

variable {buf : Text}

theorem span_of_not_mem (h : '=' ∉ buf) : (buf.span (· ≠ '=')).2 = [] := by
  rw [span_eq_takeWhile_dropWhile]
  refine dropWhile_eq_nil_iff.mpr fun c hc => ?_
  exact decide_eq_true fun heq => h (heq ▸ hc)

theorem scanValues_bare_append (hv : Bare v) (acc t : Text) :
    scanValues (.bare acc) (v ++ t) = scanValues (.bare (acc ++ v)) t := by
  induction v generalizing acc with
  | nil => simp
  | cons c v ih =>
    obtain ⟨hspace, hcomma, -⟩ := hv c mem_cons_self
    have hrest : Bare v := fun d hd => hv d (mem_cons_of_mem _ hd)
    rw [cons_append, scanValues, if_neg (by simp [hspace, hcomma]), ih hrest,
      append_assoc]
    rfl

theorem scanValues_value (hv : Bare v) (hne : v ≠ []) (t : Text) :
    scanValues .between (v ++ t) = scanValues (.bare v) t := by
  cases v with
  | nil => exact absurd rfl hne
  | cons c v =>
    obtain ⟨hspace, hcomma, hsingle, hdouble, hcomment⟩ := hv c mem_cons_self
    have hrest : Bare v := fun d hd => hv d (mem_cons_of_mem _ hd)
    rw [cons_append, scanValues, if_neg (by simp [hspace]), if_neg hcomment,
      if_neg (by simp [hsingle, hdouble]), if_neg hcomma, scanValues_bare_append hrest]
    rfl

section Line

variable {nl : Text} (hnl : nl = [] ∨ nl = ['\n'])

include hnl

theorem scanValues_end (acc : Text) : scanValues (.bare acc) nl = ([acc], true) := by
  rcases hnl with rfl | rfl
  · rfl
  · simp [scanValues, isSpace]

theorem scanValues_plain {v : Text} (h : Plain v) :
    scanValues .between (v ++ nl) = (stored v, true) := by
  by_cases hne : v = []
  · rw [hne]
    rcases hnl with rfl | rfl
    · rfl
    · rfl
  · rw [scanValues_value h.bare hne, scanValues_end hnl, stored, if_neg hne]

/-- What one line of the file does to the options. -/
theorem readLine_entry {name v : Text} (hname : '=' ∉ name) (h : Plain v) :
    readLine options (name ++ '=' :: (v ++ nl))
      = (editOption options name fun opt => { opt with values := stored v }, true) := by
  rw [readLine, span_equals hname]
  simp only [scanValues_plain hnl h]

end Line

theorem readLine_skip (h : '=' ∉ buf) : readLine options buf = (options, true) := by
  have hspan := span_of_not_mem h
  rw [readLine]
  generalize buf.span (· ≠ '=') = p at hspan
  obtain ⟨name, rest⟩ := p
  cases hspan
  rfl

variable {options' : Registry}

theorem readConfig_cons {bufs : List Text} (h : readLine options buf = (options', true)) :
    readConfig options (buf :: bufs) = readConfig options' bufs := by
  rw [readConfig, h]

theorem readConfig_skip {bufs : List Text} (h : ∀ buf ∈ bufs, '=' ∉ buf) :
    readConfig options bufs = options := by
  induction bufs with
  | nil => rfl
  | cons buf bufs ih =>
    rw [readConfig_cons (readLine_skip (h buf mem_cons_self))]
    exact ih fun buf' hbuf' => h buf' (mem_cons_of_mem _ hbuf')

variable {nl : Text}

theorem readConfig_short_name (hnl : nl = [] ∨ nl = ['\n']) (hname : '=' ∉ name ∧ '\n' ∉ name)
    (h : Plain v) (hlen : name.length < bufferLength) :
    readConfig options (Fgets.chunks bufferLength (name ++ '=' :: (v ++ nl)))
      = editOption options name fun opt =>
          { opt with values := stored (v.take (bufferLength - (name.length + 1))) } := by
  have hnl_len : nl.length ≤ 1 := by
    rcases hnl with rfl | rfl
    · exact Nat.zero_le _
    · exact Nat.le_refl _
  have hline : '\n' ∉ name ++ '=' :: v := by
    simp [hname.2, h.not_mem_newline]
  by_cases hfit : name.length + 1 + v.length + nl.length ≤ bufferLength
  · have hchunks : Fgets.chunks bufferLength (name ++ '=' :: v ++ nl) = [name ++ '=' :: v ++ nl] :=
      Fgets.chunks_of_fits hline hnl (by simp; omega) (by simp)
    rw [append_assoc, cons_append] at hchunks
    rw [hchunks, readConfig_cons (readLine_entry hnl hname.1 h), readConfig,
      take_of_length_le (by omega)]
  · -- The buffer is full inside the value, or right behind the equals sign.
    generalize hk : bufferLength - (name.length + 1) = k
    have hsplit : name ++ '=' :: (v ++ nl)
        = (name ++ '=' :: (v.take k ++ [])) ++ (v.drop k ++ nl) := by
      simp [← append_assoc (v.take k)]
    have hfull : (name ++ '=' :: (v.take k ++ [])).length = bufferLength := by
      simp
      omega
    have hfirst : '\n' ∉ name ++ '=' :: (v.take k ++ []) := by
      simp [hname.2, (h.take k).not_mem_newline]
    have hrest : ∀ buf ∈ Fgets.chunks bufferLength (v.drop k ++ nl), '=' ∉ buf := by
      intro buf hbuf hc
      rcases mem_append.mp (Fgets.mem_of_mem_chunks hbuf hc) with hv | hend
      · exact h.not_mem_equals (mem_of_mem_drop hv)
      · rcases hnl with rfl | rfl
        · cases hend
        · exact absurd (mem_singleton.mp hend) (by decide)
    rw [hsplit, Fgets.chunks_of_full (by decide) hfirst hfull,
      readConfig_cons (readLine_entry (.inl rfl) hname.1 (h.take k)), readConfig_skip hrest]

/-- **A file with the one line `name=v`.** It sets one option to what the buffer holds of `v`:
the one named if its name fits the buffer, and one with a shorter name otherwise. -/
theorem readConfig_line (options : Registry) (hnl : nl = [] ∨ nl = ['\n'])
    (hname : '=' ∉ name ∧ '\n' ∉ name) (h : Plain v) :
    ∃ p k, readConfig options (Fgets.chunks bufferLength (name ++ '=' :: (v ++ nl)))
        = editOption options p (fun opt => { opt with values := stored (v.take k) }) ∧
      (name.length < bufferLength → p = name ∧ k = bufferLength - (name.length + 1)) ∧
      (bufferLength ≤ name.length → p.length < name.length) := by
  -- The first buffers hold nothing but a piece of a long name, and are skipped.
  induction hn : name.length using Nat.strongRecOn generalizing name with
  | ind n ih =>
    by_cases hshort : name.length < bufferLength
    · refine ⟨name, _, readConfig_short_name hnl hname h hshort, fun _ => ⟨rfl, ?_⟩, ?_⟩
      · rw [hn]
      · omega
    · have hpos : 0 < bufferLength := by decide
      have hdrop : (name.drop bufferLength).length < name.length := by
        rw [length_drop]
        omega
      have hname' : '=' ∉ name.drop bufferLength ∧ '\n' ∉ name.drop bufferLength :=
        ⟨fun hc => hname.1 (mem_of_mem_drop hc), fun hc => hname.2 (mem_of_mem_drop hc)⟩
      obtain ⟨p, k, hread, hp, hp'⟩ := ih _ (hn ▸ hdrop) hname' rfl
      have hsplit : name ++ '=' :: (v ++ nl)
          = name.take bufferLength ++ (name.drop bufferLength ++ '=' :: (v ++ nl)) := by
        rw [← append_assoc, take_append_drop]
      have hskip : '=' ∉ name.take bufferLength := fun hc => hname.1 (mem_of_mem_take hc)
      have hline : '\n' ∉ name.take bufferLength := fun hc => hname.2 (mem_of_mem_take hc)
      have hfull : (name.take bufferLength).length = bufferLength := by
        rw [length_take]
        omega
      refine ⟨p, k, ?_, fun hlt => absurd hlt (by omega), fun _ => ?_⟩
      · rw [hsplit, Fgets.chunks_of_full hpos hline hfull,
          readConfig_cons (readLine_skip hskip), hread]
      · by_cases hshort' : (name.drop bufferLength).length < bufferLength
        · rw [(hp hshort').1]
          omega
        · omega

/-! ### The two stages -/

/-- The list of options when the command line is first looked at. -/
def generalOptions (files : Files) (options : Registry) : Registry :=
  (sbRegisterArgSet files options generalArgs).1

/-- `--name=v` -/
def assignment (name v : Text) : Text :=
  '-' :: '-' :: (name ++ '=' :: v)

theorem parseOption_assignment (hname : '=' ∉ name) :
    parseOption files options ((assignment name v).drop 2)
      = match findOption options name with
        | some opt => setOption files options name (some v) opt.type
        | none => (options, false) := by
  show parseOption files options (name ++ '=' :: v) = _
  rw [parseOption, span_equals hname]
  rfl

variable {arg : Text}

/-- A test name, a command and one option: the second stage gets the option if the first
could not set it. -/
theorem parseGeneralLoop_assignment {testname cmdname : Text}
    (hwords : isOption testname = false ∧ isOption cmdname = false) (harg : isOption arg = true) :
    parseGeneralLoop files options none none [testname, cmdname, arg]
      = .ok ((parseOption files options (arg.drop 2)).1,
          if (parseOption files options (arg.drop 2)).2 then [] else [arg]) := by
  simp only [parseGeneralLoop, hwords.1, hwords.2, harg, if_true, Bool.false_eq_true, if_false]
  cases parseOption files options (arg.drop 2) with
  | mk options' ok =>
    cases ok with
    | true | false => rfl

variable {test : List SbArg}

theorem processOptions_eq {testname cmdname : Text}
    (hwords : isOption testname = false ∧ isOption cmdname = false) (harg : isOption arg = true)
    (hgeneral : (sbRegisterArgSet files options generalArgs).2 = true) :
    processOptions files options test [testname, cmdname, arg]
      = parseTestArguments files test
          (parseOption files (generalOptions files options) (arg.drop 2)).1
          (if (parseOption files (generalOptions files options) (arg.drop 2)).2 then []
            else [arg]) := by
  rw [processOptions, processSets, parseGeneralArguments_of_ok hgeneral,
    parseGeneralLoop_assignment hwords harg]
  rfl

theorem general_registered {argv : List Text}
    (h : processOptions files options test argv = .ok options') :
    (sbRegisterArgSet files options generalArgs).2 = true := by
  unfold processOptions processSets parseGeneralArguments at h
  split at h
  · cases h
  · rename_i hset
    rw [hset]

theorem test_registered {argv : List Text}
    (h : parseTestArguments files test options argv = .ok options') :
    (sbRegisterArgSet files options test).2 = true := by
  unfold parseTestArguments at h
  split at h
  · cases h
  · rename_i hset
    rw [hset]

theorem parseTestArguments_nil_ok (h : parseTestArguments files test options [] = .ok options') :
    (sbRegisterArgSet files options test).2 = true ∧
      options' = (sbRegisterArgSet files options test).1 := by
  have hok := test_registered h
  rw [parseTestArguments_of_ok hok] at h
  cases h
  exact ⟨hok, rfl⟩

theorem parseTestArguments_one (harg : isOption arg = true)
    (h : parseTestArguments files test options [arg] = .ok options') :
    (sbRegisterArgSet files options test).2 = true ∧
      parseOption files (sbRegisterArgSet files options test).1 (arg.drop 2)
        = (options', true) := by
  have hok := test_registered h
  refine ⟨hok, ?_⟩
  rw [parseTestArguments_of_ok hok, parseTestLoop, if_pos harg] at h
  split at h
  · rename_i hparse
    cases h
    exact hparse
  · cases h

/-! #### The general options -/

/-- The first stage can set the option to the value. -/
def generalAccepts (general : Registry) (name v : Text) : Bool :=
  match findOption general name with
  | some opt => accepts opt.validate name (some v) opt.type
  | none => false

theorem parseOption_assignment_snd (files : Files) (options : Registry) (v : Text)
    (hname : '=' ∉ name) :
    (parseOption files options ((assignment name v).drop 2)).2 = generalAccepts options name v := by
  rw [parseOption_assignment hname, generalAccepts]
  cases hfind : findOption options name with
  | none => rfl
  | some opt =>
    rw [setOption_snd, validateOf, hfind]
    rfl

def configFile : Text := "config-file".toList

theorem findOption_configFile
    (hgeneral : (sbRegisterArgSet files options generalArgs).2 = true) :
    ∃ opt, findOption (generalOptions files options) configFile = some opt ∧
      opt.type = .file ∧ opt.values = [] ∧ opt.validate = none := by
  have hlast : lastArg generalArgs configFile = some ⟨configFile, none, .file, none⟩ := rfl
  obtain ⟨opt, hopt, htype, hvalues, hvalidate⟩ :=
    findOption_registerArgs_of_some (by decide) hgeneral hlast
  exact ⟨opt, hopt, htype, (Option.some.inj hvalues).symm, hvalidate⟩

/-- What the file leaves under the name it mentions: what fits the buffer, or what was there
if not even the name does. -/
def fileValues (name v : Text) (before : List Text) : List Text :=
  if name.length < bufferLength then stored (v.take (bufferLength - (name.length + 1)))
  else before

variable {filename : Text}

theorem findOption_readConfigFile
    (hcontent : files filename = some (name ++ '=' :: (v ++ nl))) (hnl : nl = [] ∨ nl = ['\n'])
    (hname : '=' ∉ name ∧ '\n' ∉ name) (hplain : Plain v)
    (hopt : findOption options name = some opt) :
    findOption (readConfigFile files options filename) name
      = some { opt with values := fileValues name v opt.values } := by
  obtain ⟨p, k, hread, hshort, hlong⟩ := readConfig_line options hnl hname hplain
  rw [readConfigFile, hcontent]
  dsimp only
  rw [hread, findOption_editOption (by intro; rfl), fileValues]
  by_cases hlen : name.length < bufferLength
  · obtain ⟨rfl, rfl⟩ := hshort hlen
    rw [if_pos (Alike.refl _), if_pos hlen, current_eq hopt]
  · have hp : ¬Alike p name := fun halike => by
      have := halike.length_eq
      omega
    rw [if_neg hp, if_neg hlen, hopt]

/-- The options that `read_config_file` starts from: `set_option` has emptied the one that
names the file. -/
def beforeFile (general : Registry) : Registry :=
  editOption (editOption general configFile fun opt => { opt with values := [], type := .file })
    configFile fun opt => { opt with values := [] }

theorem findOption_beforeFile {general : Registry} (h : ¬Alike configFile name) :
    findOption (beforeFile general) name = findOption general name := by
  rw [beforeFile, findOption_editOption (by intro; rfl), if_neg h,
    findOption_editOption (by intro; rfl), if_neg h]

/-- `--config-file=filename` reads the file. -/
theorem parseOption_reads_file {general : Registry} {cf : SbOption}
    (hcf : findOption general configFile = some cf) (htype : cf.type = .file)
    (hvalidate : cf.validate = none) (hfilename : filename ≠ []) :
    parseOption files general ((assignment configFile filename).drop 2)
      = (readConfigFile files (beforeFile general) filename, true) := by
  have hvalues : valuesOf .file (some filename) = some [] := by
    simp [valuesOf, hfilename]
  have hreads : readsFile .file (some filename) = true := by
    simp [readsFile, hfilename]
  rw [parseOption_assignment (by decide), hcf]
  dsimp only
  rw [htype, setOption]
  rw [validateOf_cleared, validateOf, hcf, Option.bind_some, hvalidate, hvalues, hreads]
  rfl

/-- The first stage, with `--config-file`. -/
theorem parseOption_configFile (hgeneral : (sbRegisterArgSet files options generalArgs).2 = true)
    (hfilename : filename ≠ []) (hcontent : files filename = some (name ++ '=' :: (v ++ nl)))
    (hnl : nl = [] ∨ nl = ['\n']) (hname : '=' ∉ name ∧ '\n' ∉ name) (hplain : Plain v) :
    (parseOption files (generalOptions files options)
        ((assignment configFile filename).drop 2)).2 = true ∧
      ∀ opt, findOption (generalOptions files options) name = some opt → opt.type ≠ .file →
        findOption (parseOption files (generalOptions files options)
            ((assignment configFile filename).drop 2)).1 name
          = some { opt with values := fileValues name v opt.values } := by
  obtain ⟨cf, hcf, htype, -, hvalidate⟩ := findOption_configFile hgeneral
  rw [parseOption_reads_file hcf htype hvalidate hfilename]
  refine ⟨rfl, ?_⟩
  intro opt hopt hne
  -- The file does not speak of the option that names it.
  have hother : ¬Alike configFile name := by
    intro halike
    rw [findOption_congr halike, hopt] at hcf
    cases hcf
    exact hne htype
  rw [← findOption_beforeFile hother] at hopt
  exact findOption_readConfigFile hcontent hnl hname hplain hopt

/-! #### The result -/

/-- The type an option has in the end. -/
def registeredType (general : Registry) (test : List SbArg) (name : Text) : Option SbArgType :=
  match lastArg test name with
  | some arg => some arg.type
  | none => (findOption general name).map (·.type)

/-- What a text is read as that is given to an option of the type on the command line. -/
def textValue {D : Type} [Zero D] (strtod : Text → D) (type : SbArgType) (v : Text) :
    OptionValue D :=
  if type = .bool then .flag (onWords.contains v) else optionValue strtod type (stored v)

/-- The text behind a name in the table of options.  A flag without one is set. -/
def defaultText (arg : SbArg) : Text :=
  arg.value.getD (if arg.type = .bool then "on".toList else [])

/-- What the first buffer holds of `v` behind `name=`. -/
def lineText (name v : Text) : Text := v.take (bufferLength - (name.length + 1))

/-- The line `name=v` says what `--name=v` does.  A flag is set by whatever stands in the line; a
string has to fit, and of a number what fits has to denote the same number. -/
def LineAgrees {D : Type} [Zero D] (strtod : Text → D) (name v : Text) : SbArgType → Prop
  | .bool => lineText name v ≠ [] ↔ v ∈ onWords
  | .string => name.length + 1 + v.length ≤ bufferLength
  | type => textValue strtod type (lineText name v) = textValue strtod type v

/-- The file can say `name=v` as the command line does.  The value of a test's option counts
only on the command line, and not even there if a general option of the same name takes it
first; a name that does not fit the buffer leaves the option as it was. -/
def FileAgrees {D : Type} [Zero D] (strtod : Text → D) (general : Registry)
    (test : List SbArg) (name v : Text) : Prop :=
  match lastArg test name with
  | some arg =>
    generalAccepts general name v = true ∨
      textValue strtod arg.type (defaultText arg) = textValue strtod arg.type v
  | none =>
    match findOption general name with
    | some opt =>
      if name.length < bufferLength then LineAgrees strtod name v opt.type
      else optionValue strtod opt.type opt.values = textValue strtod opt.type v
    | none => True

section Result

variable {D : Type} [Zero D] {strtod : Text → D} {test : List SbArg} {name v : Text}

theorem valueIn_eq (h : findOption options name = some opt) :
    valueIn strtod options name = some (optionValue strtod opt.type opt.values) := by
  rw [valueIn, h, Option.map_some]

theorem valuesOf_text {type : SbArgType}
    (hkind : type ∈ [SbArgType.bool, .int, .size, .double, .string]) (v : Text) :
    optionValue strtod type ((valuesOf type (some v)).getD []) = textValue strtod type v := by
  by_cases hbool : type = .bool
  · subst hbool
    rw [textValue, if_pos rfl, optionValue]
    by_cases hon : v ∈ onWords
    · simp [valuesOf, hon, sbOptToFlag]
    · by_cases hoff : v ∈ offWords <;> simp [valuesOf, hon, hoff, sbOptToFlag]
  · have hvalues : valuesOf type (some v) = some (stored v) := by
      by_cases hv : v = []
      · simp [valuesOf, stored, hv, hbool]
      · simp only [mem_cons, not_mem_nil, or_false, hbool, false_or] at hkind
        rcases hkind with rfl | rfl | rfl | rfl <;> simp [valuesOf, stored, hv]
    rw [hvalues, textValue, if_neg hbool, Option.getD_some]

theorem valuesOf_default {arg : SbArg}
    (hkind : arg.type ∈ [SbArgType.bool, .int, .size, .double, .string]) :
    optionValue strtod arg.type ((valuesOf arg.type arg.value).getD [])
      = textValue strtod arg.type (defaultText arg) := by
  rw [← valuesOf_text hkind, defaultText]
  cases hvalue : arg.value with
  | some d => rfl
  | none =>
    by_cases hbool : arg.type = .bool
    · rw [hbool]
      rfl
    · simp [valuesOf, hbool]

theorem stored_inj {a b : Text} : (stored a).head? = (stored b).head? ↔ a = b := by
  unfold stored
  by_cases ha : a = [] <;> by_cases hb : b = [] <;> simp_all [eq_comm]

theorem line_agrees_iff {type : SbArgType} (hlen : name.length < bufferLength)
    (hkind : type ∈ [SbArgType.bool, .int, .size, .double, .string]) :
    optionValue strtod type (stored (lineText name v)) = textValue strtod type v
      ↔ LineAgrees strtod name v type := by
  simp only [mem_cons, not_mem_nil, or_false] at hkind
  rcases hkind with rfl | rfl | rfl | rfl | rfl
  · by_cases hon : v ∈ onWords <;>
      simp [optionValue, textValue, LineAgrees, sbOptToFlag, stored, hon]
  · rfl
  · rfl
  · rfl
  · rw [textValue, if_neg (by decide), optionValue, optionValue, OptionValue.string.injEq,
      sbOptToString, sbOptToString, stored_inj, lineText, take_eq_self_iff, LineAgrees]
    omega

/-- A line that fits the buffer agrees, unless it is about a flag. -/
theorem lineAgrees_of_fits (strtod : Text → D) {type : SbArgType} (hbool : type ≠ .bool)
    (hfits : name.length + 1 + v.length ≤ bufferLength) : LineAgrees strtod name v type := by
  have hline : lineText name v = v := take_of_length_le (by omega)
  cases type with
  | bool => exact absurd rfl hbool
  | string => exact hfits
  | _ => exact congrArg _ hline

/-- What a successful `set_option` leaves of its option. -/
theorem valueIn_setOption {value : Option Text} {type : SbArgType} {options' : Registry}
    (htype : type ≠ .file) (h : setOption files options name value type = (options', true)) :
    valueIn strtod options' name
      = some (optionValue strtod type ((valuesOf type value).getD [])) := by
  have haccept := setOption_snd files options name value type
  have hfile : readsFile type value = false := readsFile_of_ne value htype
  have hfind := findOption_setOption files hfile options name name
  rw [h] at haccept hfind
  rw [if_pos (Alike.refl name), assigned, if_pos haccept.symm] at hfind
  rw [valueIn_eq hfind]

/-- Registering the test's options gives them their defaults. -/
theorem valueIn_registered {arg : SbArg} (htest : ∀ a ∈ test, readsFile a.type a.value = false)
    (hok : (sbRegisterArgSet files options test).2 = true) (hlast : lastArg test name = some arg) :
    valueIn strtod (sbRegisterArgSet files options test).1 name
      = some (optionValue strtod arg.type ((valuesOf arg.type arg.value).getD [])) := by
  obtain ⟨opt, hopt, hty, hvalues, -⟩ := findOption_registerArgs_of_some htest hok hlast
  rw [sbRegisterArgSet, valueIn_eq hopt, hty, hvalues, Option.getD_some]

section CommandLine

variable (hname : '=' ∉ name) (htest : ∀ a ∈ test, readsFile a.type a.value = false)
  (hcli : parseTestArguments files test (parseOption files general ((assignment name v).drop 2)).1
    (if generalAccepts general name v then [] else [assignment name v]) = .ok options₁)
include hname htest hcli

theorem valueIn_cli_of_test {arg : SbArg} (hlast : lastArg test name = some arg)
    (htype : arg.type ≠ .file) :
    valueIn strtod options₁ name
      = some (optionValue strtod arg.type (if generalAccepts general name v then
          (valuesOf arg.type arg.value).getD [] else (valuesOf arg.type (some v)).getD [])) := by
  cases haccept : generalAccepts general name v with
  | true =>
    rw [haccept] at hcli
    obtain ⟨hok, rfl⟩ := parseTestArguments_nil_ok hcli
    rw [if_pos rfl]
    exact valueIn_registered htest hok hlast
  | false =>
    rw [haccept] at hcli
    obtain ⟨hok, hparse⟩ := parseTestArguments_one rfl hcli
    obtain ⟨opt, hopt, hty, -, -⟩ := findOption_registerArgs_of_some htest hok hlast
    rw [parseOption_assignment hname, sbRegisterArgSet, hopt] at hparse
    rw [← hty]
    exact valueIn_setOption (hty ▸ htype) hparse

theorem valueIn_cli_of_general (hlast : lastArg test name = none)
    (hopt : findOption general name = some opt) (htype : opt.type ≠ .file) :
    valueIn strtod options₁ name
      = some (optionValue strtod opt.type ((valuesOf opt.type (some v)).getD [])) := by
  have hparse : parseOption files general ((assignment name v).drop 2)
      = setOption files general name (some v) opt.type := by
    rw [parseOption_assignment hname, hopt]
  have hsnd := parseOption_assignment_snd files general v hname
  rw [hparse] at hsnd hcli
  cases haccept : generalAccepts general name v with
  | true =>
    rw [haccept] at hsnd hcli
    obtain ⟨hok, rfl⟩ := parseTestArguments_nil_ok hcli
    have hkeep := findOption_registerArgs_of_none htest hok hlast
    rw [valueIn, sbRegisterArgSet, hkeep]
    exact valueIn_setOption htype (Prod.ext rfl hsnd)
  | false =>
    -- The second stage meets the same type and the same callback.
    rw [haccept] at hcli
    obtain ⟨hok, hparse'⟩ := parseTestArguments_one rfl hcli
    have hkeep := findOption_registerArgs_of_none htest hok hlast
    rw [findOption_setOption files (readsFile_of_ne _ htype), if_pos (Alike.refl name)] at hkeep
    have hsnd' := congrArg Prod.snd hparse'
    rw [parseOption_assignment_snd files _ v hname, generalAccepts, sbRegisterArgSet,
      hkeep] at hsnd'
    rw [generalAccepts, hopt] at haccept
    rw [current_eq hopt, haccept] at hsnd'
    cases hsnd'

end CommandLine

theorem valueIn_file (strtod : Text → D) {type : SbArgType}
    (hfile : ∀ opt, findOption general name = some opt → opt.type ≠ .file →
      findOption options name = some { opt with values := fileValues name v opt.values })
    (htest : ∀ a ∈ test, readsFile a.type a.value = false)
    (htype : registeredType general test name = some type) (hne : type ≠ .file)
    (hok : (sbRegisterArgSet files options test).2 = true) :
    valueIn strtod (sbRegisterArgSet files options test).1 name
      = some (optionValue strtod type (match lastArg test name with
          | some arg => (valuesOf arg.type arg.value).getD []
          | none => fileValues name v (current general name).values)) := by
  rw [registeredType] at htype
  cases hlast : lastArg test name with
  | some arg =>
    rw [hlast] at htype
    cases htype
    exact valueIn_registered htest hok hlast
  | none =>
    rw [hlast] at htype
    obtain ⟨opt, hopt, rfl⟩ := Option.map_eq_some_iff.mp htype
    have hkeep := findOption_registerArgs_of_none htest hok hlast
    rw [hfile opt hopt hne] at hkeep
    rw [sbRegisterArgSet, valueIn_eq hkeep, current_eq hopt]

end Result

/-- **When the configuration file agrees with the command line.** For every option that is
registered with one of the five types and every value without blank, comma, quote, comment
or equals sign that the command line accepts, the two stages with a file that holds the one
line `name=v` succeed too; and they leave the option with the value that `--name=v` gives it
if and only if the file can say so. -/
theorem config_file_agrees_iff {D : Type} [Zero D] (strtod : Text → D)
    (files : Files) (options : Registry) (test : List SbArg)
    (testname cmdname filename name v nl : Text) (type : SbArgType) (options₁ : Registry)
    (hwords : isOption testname = false ∧ isOption cmdname = false)
    (hname : '=' ∉ name ∧ '\n' ∉ name) (hplain : Plain v)
    (hfilename : filename ≠ []) (hnl : nl = [] ∨ nl = ['\n'])
    (hcontent : files filename = some (name ++ '=' :: (v ++ nl)))
    (htest : ∀ a ∈ test, readsFile a.type a.value = false)
    (htype : registeredType (generalOptions files options) test name = some type)
    (hkind : type ∈ [SbArgType.bool, .int, .size, .double, .string])
    (hcli : processOptions files options test [testname, cmdname, assignment name v]
      = .ok options₁) :
    ∃ options₂, processOptions files options test
        [testname, cmdname, assignment configFile filename] = .ok options₂ ∧
      (valueIn strtod options₂ name = valueIn strtod options₁ name
        ↔ FileAgrees strtod (generalOptions files options) test name v) := by
  have hgeneral := general_registered hcli
  have hne : type ≠ .file := by
    rintro rfl
    exact absurd hkind (by decide)
  rw [processOptions_eq hwords rfl hgeneral, parseOption_assignment_snd files _ v hname.1] at hcli
  rw [processOptions_eq hwords rfl hgeneral]
  obtain ⟨hread, hfile⟩ := parseOption_configFile hgeneral hfilename hcontent hnl hname hplain
  have hok : (sbRegisterArgSet files (parseOption files (generalOptions files options)
      ((assignment configFile filename).drop 2)).1 test).2 = true := by
    rw [← test_registered hcli]
    refine registerArgs_snd_congr fun m => ?_
    rw [validateOf_parseOption, validateOf_parseOption]
  have hvalue := valueIn_file strtod hfile htest htype hne hok
  rw [hread, if_pos rfl, parseTestArguments_of_ok hok]
  refine ⟨_, rfl, ?_⟩
  rw [hvalue, FileAgrees]
  rw [registeredType] at htype
  cases hlast : lastArg test name with
  | some arg =>
    rw [hlast] at htype
    cases htype
    rw [valueIn_cli_of_test hname.1 htest hcli hlast hne, Option.some_inj]
    dsimp only
    rw [← valuesOf_default hkind, ← valuesOf_text hkind]
    cases haccept : generalAccepts (generalOptions files options) name v with
    | true | false => simp
  | none =>
    rw [hlast] at htype
    obtain ⟨opt, hopt, rfl⟩ := Option.map_eq_some_iff.mp htype
    rw [valueIn_cli_of_general hname.1 htest hcli hlast hopt hne, hopt, current_eq hopt,
      Option.some_inj, valuesOf_text hkind]
    dsimp only
    by_cases hlen : name.length < bufferLength
    · rw [fileValues, if_pos hlen, if_pos hlen]
      exact line_agrees_iff hlen hkind
    · rw [fileValues, if_neg hlen, if_neg hlen]

/-- A test with the first two options of `fileio_args`. -/
def fileioOptions : List SbArg :=
  [⟨"file-num".toList, some "128".toList, .int, none⟩,
    ⟨"file-block-size".toList, some "16384".toList, .int, none⟩]

/-- A file system with one file `f`. -/
def oneFile (content : String) (filename : Text) : Option Text :=
  if filename = ['f'] then some content.toList else none

/-- `sysbench fileio run arg` with that file, and what the option is read as in the end. -/
def runWith (content arg name : String) : Except String (Option (OptionValue ℕ)) := do
  let options ← processOptions (oneFile content) [] fileioOptions
    ["fileio".toList, "run".toList, arg.toList]
  pure (valueIn (fun _ => 0) options name.toList)

theorem config_file_agrees_on_threads :
    ∃ options₁ options₂,
      processOptions (oneFile "threads=4\n") [] fileioOptions
        ["fileio".toList, "run".toList, assignment "threads".toList "4".toList]
          = .ok options₁ ∧
      processOptions (oneFile "threads=4\n") [] fileioOptions
        ["fileio".toList, "run".toList, assignment configFile ['f']] = .ok options₂ ∧
      valueIn (fun _ => (0 : ℕ)) options₂ "threads".toList
        = valueIn (fun _ => (0 : ℕ)) options₁ "threads".toList := by
  obtain ⟨options₂, hrun, hiff⟩ := config_file_agrees_iff (fun _ => (0 : ℕ))
    (oneFile "threads=4\n") [] fileioOptions "fileio".toList "run".toList ['f'] "threads".toList
    "4".toList ['\n'] .int _ (by decide) (by decide) (by decide) (by decide) (.inr rfl) rfl
    (by decide) rfl (by decide) rfl
  have hline : LineAgrees (fun _ => (0 : ℕ)) "threads".toList "4".toList .int :=
    lineAgrees_of_fits _ (by decide) (by decide)
  exact ⟨_, options₂, rfl, hrun, hiff.mpr hline⟩

/-- The file cannot switch a flag off, and what it says of a test's option is lost. -/
theorem config_file_disagrees :
    (runWith "debug=off\n" "--debug=off" "debug" = .ok (some (.flag false)) ∧
      runWith "debug=off\n" "--config-file=f" "debug" = .ok (some (.flag true))) ∧
    (runWith "file-num=5\n" "--file-num=5" "file-num" = .ok (some (.int (some 5))) ∧
      runWith "file-num=5\n" "--config-file=f" "file-num" = .ok (some (.int (some 128)))) :=
  ⟨⟨rfl, rfl⟩, rfl, rfl⟩

end Sysbench.Options
