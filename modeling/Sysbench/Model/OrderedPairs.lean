/-
The options that a script defines: `sysbench.cmdline.lua`.

`read_cmdline_options` goes through `sysbench.cmdline.options` in the order of the names.  Its
iterator keeps the sorted names in the table itself, under `__orderedIndex`, and looks for the
current one anew in every call.

A table is the list of its entries as `pairs` goes through them.  A new key may turn up anywhere
in that order, but `pairs` is not called while there is one.
-/
import Mathlib.Data.Char
import Mathlib.Data.List.Lex
import Sysbench.Model.Options

namespace Sysbench.Cmdline

open Options

inductive LuaError where
  | assertion (message : Text)
  /-- `__orderedIndex` is not there. -/
  | indexNil
  /-- A value has no counterpart in C. -/
  | conversion
  /-- A write behind the end of `args` -/
  | outOfBounds
  /-- The loop has not come to an end. -/
  | running

/-- What is stored under a key: an option, or the names in order. -/
inductive Slot (V : Type) where
  | value (v : V)
  | index (keys : List Text)

abbrev LuaTable (V : Type) := List (Text × Slot V)

def orderedIndex : Text := "__orderedIndex".toList

section Iterator

variable {V A : Type}

namespace LuaTable

def keys (t : LuaTable V) : List Text := t.map Prod.fst

def get (t : LuaTable V) (key : Text) : Option (Slot V) := t.lookup key

def erase (t : LuaTable V) (key : Text) : LuaTable V := t.filter (·.1 ≠ key)

def set (t : LuaTable V) (key : Text) (slot : Slot V) : LuaTable V := t.erase key ++ [(key, slot)]

end LuaTable

/-- `__genOrderedIndex`; `table.sort` compares bytes. -/
def genOrderedIndex (t : LuaTable V) : List Text := t.keys.insertionSort (· ≤ ·)

/-- The loop of `orderedNext`, which goes on when it has found the key. -/
def nextKey (index : List Text) (state : Text) : Option Text :=
  (List.range index.length).foldl
    (fun key i => if index[i]? = some state then index[i + 1]? else key) none

def orderedNext (t : LuaTable V) (state : Option Text) :
    Except LuaError (LuaTable V × Option (Text × Option (Slot V))) := do
  let (t, key) ←
    match state with
    | none => pure (t.set orderedIndex (.index (genOrderedIndex t)), (genOrderedIndex t)[0]?)
    | some state =>
      match t.get orderedIndex with
      | some (.index index) => pure (t, nextKey index state)
      | _ => .error .indexNil
  match key with
  | some key => pure (t, some (key, t.get key))
  | none => pure (t.erase orderedIndex, none)

/-- `for key, value in orderedPairs(t) do body end`, from a state of the iterator on. -/
def forOrdered (body : A → Text → Option (Slot V) → Except LuaError A) :
    ℕ → LuaTable V → Option Text → A → Except LuaError (LuaTable V × A)
  | 0, _, _, _ => .error .running
  | fuel + 1, t, state, a => do
    match ← orderedNext t state with
    | (t, none) => pure (t, a)
    | (t, some (key, value)) => forOrdered body fuel t (some key) (← body a key value)

end Iterator

/-- `def[2]`.  A number is what `tostring` makes of it, a table its elements as printed. -/
inductive DefaultValue where
  | nil
  | boolean (b : Bool)
  | number (text : Text)
  | string (s : Text)
  | table (items : List Text)
  | other

/-- An element of `sysbench.cmdline.options`, `def[1]` to `def[4]`. -/
structure OptionDef where
  desc : Option Text
  default : DefaultValue
  type : Option SbArgType
  validate : Option SbOptValidate

/-- `args[i].value` -/
def defaultText : DefaultValue → Except LuaError (Option Text)
  | .nil => .ok none
  | .boolean b => .ok (some (if b then "on" else "off").toList)
  | .number text | .string text => .ok (some text)
  | .table items => .ok (some (",".toList.intercalate items))
  | .other => .error .conversion

/-- The type of an option that names none: `arg_types`, and `ARG_STRING` without a default -/
def defaultType : DefaultValue → Option SbArgType
  | .nil | .string _ => some .string
  | .boolean _ => some .bool
  | .number _ => some .double
  | .table _ => some .list
  | .other => none

/-- The body of the loop, for a definition that is a table if there is one.  A list must not name
a type: `type(def[3])` is a string, and so never `ARG_LIST`. -/
def optionArg (name : Text) : Option (Slot (Option OptionDef)) → Except LuaError SbArg
  | some (.value (some d)) =>
    if d.desc = none then .error (.assertion ("nil description for option ".toList ++ name))
    else if d.default matches .table _ ∧ d.type ≠ none then
      .error (.assertion ("wrong type for list option ".toList ++ name))
    else do
      let value ← defaultText d.default
      match d.type <|> defaultType d.default with
      | none => .error (.assertion ("cannot determine type for option ".toList ++ name))
      | some type => pure { name := name, value := value, type := type, validate := d.validate }
  | _ => .error (.assertion "wrong table structure in sysbench.cmdline.options".toList)

/-- `read_cmdline_options`, up to the array and the number it gives to `sb_lua_set_test_args`. -/
def readCmdlineOptions (fuel : ℕ) (options : LuaTable (Option OptionDef)) :
    Except LuaError (LuaTable (Option OptionDef) × List (Option SbArg) × ℕ) :=
  forOrdered
    (fun (args, i) name slot => do
      let arg ← optionArg name slot
      if i < args.length then pure (args.set i (some arg), i + 1) else .error .outOfBounds)
    fuel options none (List.replicate options.length none, 0)

end Sysbench.Cmdline
