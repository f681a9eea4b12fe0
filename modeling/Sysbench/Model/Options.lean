/-
Command line options: `sb_options.c`, and the two stages that fill them in `sysbench.c`.

Options live in one list and are looked up by name, dashes and underscores counting as
the same.  The command line goes through `set_option`, which knows the type of an option;
a configuration file goes through `read_config`, which stores what it finds.  General
options are registered before the command line is looked at for the first time, those of
a test only after that, when the test is known.

Names and values are lists of characters.  A getter that prints a message and exits
returns none.  Printing and memory management are left out.
-/
import Mathlib.Data.UInt
import Sysbench.Lib.Fgets
import Sysbench.Lib.FirstMatch

namespace Sysbench.Options

abbrev Text := List Char

/-! ### The table -/

inductive SbArgType where
  | null
  | bool
  | int
  | size
  | double
  | string
  | list
  | file
  deriving DecidableEq

/-- `sb_opt_validate_t`; the second argument may be NULL. -/
abbrev SbOptValidate := Text → Option Text → Bool

/-- `sb_arg_t`, without the description. -/
structure SbArg where
  name : Text
  value : Option Text
  type : SbArgType
  validate : Option SbOptValidate

/-- `option_t` -/
structure SbOption where
  name : Text
  type : SbArgType
  values : List Text
  validate : Option SbOptValidate

/-- `options` -/
abbrev Registry := List SbOption

/-- The files that can be opened, with what is in them. -/
abbrev Files := Text → Option Text

def convertDashes (name : Text) : Text :=
  name.map fun c => if c = '-' then '_' else c

/-- `opt_name_cmp`, whether it returns 0 -/
def optNameCmp : Text → Text → Bool
  | [], [] => true
  | c₁ :: s₁, c₂ :: s₂ =>
    if c₁ = c₂ ∨ (c₁ = '-' ∨ c₁ = '_') ∧ (c₂ = '-' ∨ c₂ = '_') then optNameCmp s₁ s₂ else false
  | [], _ :: _ => false
  | _ :: _, [] => false

/-- `opt_name_cmp` on memory: what it returns, from the bytes at the two pointers on.  None is a
read behind the last byte. -/
def optNameCmpBytes : List Char → List Char → Option ℤ
  | c₁ :: s₁, c₂ :: s₂ =>
    if c₁ ≠ '\x00' ∧ (c₁ = c₂ ∨ (c₁ = '-' ∨ c₁ = '_') ∧ (c₂ = '-' ∨ c₂ = '_')) then
      optNameCmpBytes s₁ s₂
    else some (c₁.toNat - c₂.toNat)
  | _, _ => none

/-- The bytes of a string, which end with its terminator. -/
def cString (s : Text) : List Char :=
  s ++ ['\x00']

def findOption (options : Registry) (name : Text) : Option SbOption :=
  options.find? fun opt => optNameCmp opt.name name

/-- `new_option`, with the name that `add_option` gives it -/
def newOption (name : Text) : SbOption where
  name := convertDashes name
  type := .null
  values := []
  validate := none

/-- Change the option that `add_option` returns: the one of that name, or a new one at the
end of the list. -/
def editOption (options : Registry) (name : Text) (change : SbOption → SbOption) : Registry :=
  FirstMatch.edit (fun opt => optNameCmp opt.name name) (newOption name) change options

def addOption (options : Registry) (name : Text) : Registry :=
  editOption options name id

/-- `remove_option`: the list it leaves, and whether it returns 0. -/
def removeOption (options : Registry) (name : Text) : Registry × Bool :=
  (options.eraseP fun opt => optNameCmp opt.name name, (findOption options name).isSome)

/-! ### Configuration files -/

def isSpace (c : Char) : Bool :=
  c = ' ' || c = '\t' || c = '\n' || c = '\x0b' || c = '\x0c' || c = '\r'

/-- Where `read_config` is in the text behind the equals sign. -/
inductive Scan where
  /-- Between two values -/
  | between
  /-- In a value, of which `acc` has been read -/
  | bare (acc : Text)
  /-- In a value in quotes -/
  | quoted (quote : Char) (acc : Text)
  /-- Behind the quote, looking for a separator -/
  | behind

/-- The loop of `read_config` over one line: the values, and whether the last quote was
closed. -/
def scanValues : Scan → Text → List Text × Bool
  | .between, [] => ([], true)
  | .between, c :: cs =>
    if isSpace c then scanValues .between cs
    else if c = '#' then ([], true)
    else if c = '\'' ∨ c = '"' then scanValues (.quoted c []) cs
    -- A separator in front of a value ends an empty one.
    else if c = ',' then ([] :: (scanValues .between cs).1, (scanValues .between cs).2)
    else scanValues (.bare [c]) cs
  | .bare acc, [] => ([acc], true)
  | .bare acc, c :: cs =>
    if c = ',' ∨ isSpace c then
      (acc :: (scanValues .between cs).1, (scanValues .between cs).2)
    else scanValues (.bare (acc ++ [c])) cs
  | .quoted _ _, [] => ([], false)
  | .quoted quote acc, c :: cs =>
    if c = quote then (acc :: (scanValues .behind cs).1, (scanValues .behind cs).2)
    else scanValues (.quoted quote (acc ++ [c])) cs
  | .behind, [] => ([], true)
  | .behind, c :: cs => if c = ',' then scanValues .between cs else scanValues .behind cs

/-- `read_config` on what one `fgets` returned; false if it gives up. -/
def readLine (options : Registry) (buf : Text) : Registry × Bool :=
  match buf.span (· ≠ '=') with
  | (_, []) => (options, true)
  | (name, _ :: tmp) =>
    let (values, ok) := scanValues .between tmp
    (editOption options name fun opt => { opt with values := values }, ok)

def readConfig (options : Registry) : List Text → Registry
  | [] => options
  | buf :: bufs =>
    match readLine options buf with
    | (options, true) => readConfig options bufs
    | (options, false) => options

/-- Whether `read_config` returns the list, and not NULL.  `read_config_file` does not ask. -/
def readConfigReturns : Registry → List Text → Bool
  | _, [] => true
  | options, buf :: bufs =>
    match readLine options buf with
    | (options, true) => readConfigReturns options bufs
    | (_, false) => false

/-- `MAXSTRLEN` without the terminating NUL -/
def bufferLength : ℕ := 256 - 1

/-- `read_config_file`.  `files` is the file system; a file that cannot be opened changes
nothing. -/
def readConfigFile (files : Files) (options : Registry) (filename : Text) :
    Registry :=
  match files filename with
  | none => options
  | some content => readConfig options (Fgets.chunks bufferLength content)

/-- What `write_config` prints of one option.  Nothing ever sets `ignore` of a value. -/
def writeOption (opt : SbOption) : Text :=
  opt.name ++ " = ".toList ++ ", ".toList.intercalate opt.values ++ ['\n']

/-- `write_config`: the text, and the options with their `ignore` flags, which it sets.  An option
that has it set is not printed. -/
def writeConfig : List (SbOption × Bool) → Text × List (SbOption × Bool)
  | [] => ([], [])
  | (opt, ignore) :: options =>
    let (text, options) := writeConfig options
    (if ignore then text else writeOption opt ++ text, (opt, true) :: options)

/-! ### Setting and registering -/

def onWords : List Text := ["on".toList, "true".toList, "1".toList]

def offWords : List Text := ["off".toList, "false".toList, "0".toList]

/-- The values that `set_option` adds for an argument of a type, or none if it fails. -/
def valuesOf (type : SbArgType) (value : Option Text) : Option (List Text) :=
  if type ≠ .bool ∧ (value = none ∨ value = some []) then some []
  else
    match type, value with
    | .bool, none => some ["on".toList]
    | .bool, some v =>
      if v ∈ onWords then some ["on".toList] else if v ∈ offWords then some [] else none
    | .int, some v => some [v]
    | .size, some v => some [v]
    | .double, some v => some [v]
    | .string, some v => some [v]
    -- `strtok` skips empty fields.
    | .list, some v => some ((v.splitOn ',').filter (· ≠ []))
    | .file, some _ => some []
    | _, _ => none

/-- `set_option` reads a file. -/
def readsFile (type : SbArgType) (value : Option Text) : Bool :=
  type = .file && value.any (· ≠ [])

/-- `opt->validate`, of the option with that name -/
def validateOf (options : Registry) (name : Text) : Option SbOptValidate :=
  (findOption options name).bind (·.validate)

/-- `set_option`: the list it leaves, and whether it returns an option. -/
def setOption (files : Files) (options : Registry) (name : Text)
    (value : Option Text) (type : SbArgType) : Registry × Bool :=
  let cleared := editOption options name fun opt => { opt with values := [], type := type }
  if (validateOf cleared name).any fun validate => !validate name value then (cleared, false)
  else
    match valuesOf type value with
    | none => (cleared, false)
    | some values =>
      let filled := editOption cleared name fun opt => { opt with values := values }
      if readsFile type value then (readConfigFile files filled (value.getD []), true)
      else (filled, true)

/-- The loop of `sb_register_arg_set`.  The callback is that of the first element. -/
def registerArgs (files : Files) (validate : Option SbOptValidate) :
    Registry → List SbArg → Registry × Bool
  | options, [] => (options, true)
  | options, arg :: set =>
    match setOption files options arg.name arg.value arg.type with
    | (options, false) => (options, false)
    | (options, true) =>
      registerArgs files validate
        (editOption options arg.name fun opt => { opt with validate := validate }) set

def sbRegisterArgSet (files : Files) (options : Registry) (set : List SbArg) :
    Registry × Bool :=
  registerArgs files (set.head?.bind (·.validate)) options set

/-- A call that changes the list. -/
inductive RegistryOp where
  | add (name : Text)
  | set (name : Text) (value : Option Text) (type : SbArgType)
  | register (set : List SbArg)
  | remove (name : Text)

def applyOp (files : Files) (options : Registry) : RegistryOp → Registry
  | .add name => addOption options name
  | .set name value type => (setOption files options name value type).1
  | .register set => (sbRegisterArgSet files options set).1
  | .remove name => (removeOption options name).1

/-- A sequence of calls, from `sb_options_init` on. -/
def runOps (files : Files) (ops : List RegistryOp) : Registry :=
  ops.foldl (applyOp files) []

/-! ### Getters -/

def sbOptToFlag (values : List Text) : Bool :=
  values ≠ []

/-- `strtol` to base 10: the number, and what stands behind it.  A number beyond `long` is
beyond `int` as well, so that it is not cut off makes no difference below. -/
def strtol (s : Text) : ℤ × Text :=
  let (negative, digits) : Bool × Text :=
    match s.dropWhile isSpace with
    | '-' :: rest => (true, rest)
    | '+' :: rest => (false, rest)
    | rest => (false, rest)
  if digits.takeWhile Char.isDigit = [] then (0, s)
  else
    let n : ℕ := (digits.takeWhile Char.isDigit).foldl (fun n c => n * 10 + (c.toNat - 48)) 0
    (if negative then -n else n, digits.dropWhile Char.isDigit)

/-- `sb_opt_to_int`; none is the exit with `Invalid value for the option`. -/
def sbOptToInt : List Text → Option ℤ
  | [] => some 0
  | value :: _ =>
    let (res, endptr) := strtol value
    if endptr ≠ [] ∨ res > 2 ^ 31 - 1 ∨ res < -2 ^ 31 then none else some res

/-- The loop of `sb_opt_to_size`: the number so far, and the character that ends it if there
was a digit. -/
def sizeDigits : Bool → UInt64 → Text → UInt64 × Option Char
  | _, res, [] => (res, none)
  | seen, res, c :: cs =>
    if c < '0' ∨ c > '9' then (res, if seen then some c else none)
    else sizeDigits true (res * 10 + UInt64.ofNat (c.toNat - 48)) cs

def sizemods : List Char := ['K', 'M', 'G', 'T']

def sbOptToSize : List Text → UInt64
  | [] => 0
  | value :: _ =>
    match sizeDigits false 0 value with
    | (res, none) => res
    | (res, some mult) =>
      if mult.toUpper ∈ sizemods then res * 1024 ^ (sizemods.idxOf mult.toUpper + 1) else 0

/-- `sb_opt_to_double`, which goes on to the last value -/
def sbOptToDouble {D : Type} [Zero D] (strtod : Text → D) (values : List Text) : D :=
  values.foldl (fun _ value => strtod value) 0

def sbOptToString (values : List Text) : Option Text :=
  values.head?

/-- `sb_get_value_flag`; an option that is not there has the value of an empty one. -/
def sbGetValueFlag (options : Registry) (name : Text) : Bool :=
  (findOption options name).elim false fun opt => sbOptToFlag opt.values

def sbGetValueInt (options : Registry) (name : Text) : Option ℤ :=
  (findOption options name).elim (some 0) fun opt => sbOptToInt opt.values

def sbGetValueSize (options : Registry) (name : Text) : UInt64 :=
  (findOption options name).elim 0 fun opt => sbOptToSize opt.values

def sbGetValueDouble {D : Type} [Zero D] (strtod : Text → D) (options : Registry) (name : Text) :
    D :=
  (findOption options name).elim 0 fun opt => sbOptToDouble strtod opt.values

def sbGetValueString (options : Registry) (name : Text) : Option Text :=
  (findOption options name).bind fun opt => sbOptToString opt.values

def sbGetValueList (options : Registry) (name : Text) : Option (List Text) :=
  (findOption options name).map fun opt => opt.values

/-- What an option is read as. -/
inductive OptionValue (D : Type) where
  | flag (b : Bool)
  | int (n : Option ℤ)
  | size (n : UInt64)
  | double (x : D)
  | string (s : Option Text)
  | list (values : List Text)
  deriving DecidableEq

/-- The getter for a type. -/
def optionValue {D : Type} [Zero D] (strtod : Text → D) (type : SbArgType)
    (values : List Text) : OptionValue D :=
  match type with
  | .bool => .flag (sbOptToFlag values)
  | .int => .int (sbOptToInt values)
  | .size => .size (sbOptToSize values)
  | .double => .double (sbOptToDouble strtod values)
  | .string => .string (sbOptToString values)
  | .null => .list values
  | .list => .list values
  | .file => .list values

/-- What the option of that name is read as. -/
def valueIn {D : Type} [Zero D] (strtod : Text → D) (options : Registry) (name : Text) :
    Option (OptionValue D) :=
  (findOption options name).map fun opt => optionValue strtod opt.type opt.values

/-! ### The two stages -/

def generalArgs : List SbArg :=
  [⟨"threads".toList, some "1".toList, .int, none⟩,
    ⟨"events".toList, some "0".toList, .int, none⟩,
    ⟨"time".toList, some "10".toList, .int, none⟩,
    ⟨"warmup-time".toList, some "0".toList, .int, none⟩,
    ⟨"forced-shutdown".toList, some "off".toList, .string, none⟩,
    ⟨"thread-stack-size".toList, some "64K".toList, .size, none⟩,
    ⟨"thread-init-timeout".toList, some "3000".toList, .int, none⟩,
    ⟨"rate".toList, some "0".toList, .int, none⟩,
    ⟨"report-interval".toList, some "0".toList, .int, none⟩,
    ⟨"report-checkpoints".toList, some [], .list, none⟩,
    ⟨"debug".toList, some "off".toList, .bool, none⟩,
    ⟨"validate".toList, some "off".toList, .bool, none⟩,
    ⟨"help".toList, some "off".toList, .bool, none⟩,
    ⟨"version".toList, some "off".toList, .bool, none⟩,
    ⟨"config-file".toList, none, .file, none⟩,
    ⟨"luajit-cmd".toList, none, .string, none⟩]

/-- `parse_option`, whether it returns 0.  Both callers pass false for `ignore_unknown`. -/
def parseOption (files : Files) (options : Registry) (arg : Text) :
    Registry × Bool :=
  let (name, rest) := arg.span (· ≠ '=')
  match findOption options name with
  | some opt => setOption files options name rest.tail? opt.type
  | none => (options, false)

/-- `!strncmp(arg, "--", 2)` -/
def isOption (arg : Text) : Bool :=
  arg.take 2 = ['-', '-']

/-- The loop of `parse_general_arguments`: the options, and the arguments it leaves for the
second stage. -/
def parseGeneralLoop (files : Files) : Registry → Option Text → Option Text →
    List Text → Except String (Registry × List Text)
  | options, _, _, [] => .ok (options, [])
  | options, testname, cmdname, arg :: argv =>
    if isOption arg then
      match parseOption files options (arg.drop 2) with
      | (options, true) => parseGeneralLoop files options testname cmdname argv
      | (options, false) => do
        let (options, left) ← parseGeneralLoop files options testname cmdname argv
        pure (options, arg :: left)
    else
      match testname, cmdname with
      | none, _ => parseGeneralLoop files options (some arg) cmdname argv
      | some _, none => parseGeneralLoop files options testname (some arg) argv
      | some _, some _ =>
        .error ("Unrecognized command line argument: " ++ String.ofList arg)

/-- `parse_general_arguments`, with the set it registers -/
def parseGeneralArguments (files : Files) (general : List SbArg) (options : Registry)
    (argv : List Text) : Except String (Registry × List Text) :=
  match sbRegisterArgSet files options general with
  | (_, false) => .error ""
  | (options, true) => parseGeneralLoop files options none none argv

/-- The loop of `parse_test_arguments` over what is left. -/
def parseTestLoop (files : Files) : Registry → List Text → Except String Registry
  | options, [] => .ok options
  | options, arg :: argv =>
    if isOption arg then
      match parseOption files options (arg.drop 2) with
      | (options, true) => parseTestLoop files options argv
      | (_, false) => .error ("invalid option: " ++ String.ofList arg)
    else parseTestLoop files options argv

def parseTestArguments (files : Files) (test : List SbArg) (options : Registry)
    (argv : List Text) : Except String Registry :=
  match sbRegisterArgSet files options test with
  | (_, false) => .error ""
  | (options, true) => parseTestLoop files options argv

/-- The option processing of `main`, for any two sets: what `parse_general_arguments` and, once
the test is known, `parse_test_arguments` make of the command line. -/
def processSets (files : Files) (options : Registry) (general test : List SbArg)
    (argv : List Text) : Except String Registry := do
  let (options, left) ← parseGeneralArguments files general options argv
  parseTestArguments files test options left

/-- The option processing of `main`. -/
def processOptions (files : Files) (options : Registry) (test : List SbArg)
    (argv : List Text) : Except String Registry :=
  processSets files options generalArgs test argv

end Sysbench.Options
