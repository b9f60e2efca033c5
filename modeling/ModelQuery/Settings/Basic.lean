import ModelQuery.Number.Reading
import ModelQuery.Selection.Basic
import ModelQuery.Text.Blank
import ModelQuery.Text.Lowercase

/-! Settings: what the commands use where they are not told otherwise. A setting has a key, and a
new value for it is checked before it is taken. -/

namespace ModelQuery

structure Settings where
  /-- The file with the model. -/
  model : Option String
  /-- The file with the catalog. -/
  catalog : Option String
  /-- The lifetime of new selections in seconds. -/
  lifetime : Option Int64
  /-- How many ids a page shows. -/
  pageSize : Option Nat
  /-- Whether output may have colors. -/
  color : Option Bool
  /-- How much is logged. -/
  level : Option String
  deriving DecidableEq, Repr, Inhabited

/-- What can be set. -/
inductive Setting
  | model
  | catalog
  | lifetime
  | pageSize
  | color
  | level
  deriving DecidableEq, Repr

namespace Setting

def all : List Setting :=
  [model, catalog, lifetime, pageSize, color, level]

def key : Setting → String
  | model => "model.path"
  | catalog => "model.catalog"
  | lifetime => "selection.ttl_secs"
  | pageSize => "selection.page_size"
  | color => "output.color"
  | level => "log.level"

def ofKey? (key : String) : Option Setting :=
  all.find? fun setting => setting.key = key

theorem ofKey?_key (setting : Setting) : ofKey? setting.key = some setting := by
  cases setting <;> decide

end Setting

namespace Settings

/-- Nothing is set. -/
def unset : Settings := ⟨none, none, none, none, none, none⟩

/-- Why a setting is not taken. -/
inductive Refusal
  | unknownKey (key : String)
  | notPositive (setting : Setting) (value : String)
  | tooLong (setting : Setting) (value : String)
  | notBoolean (value : String)
  | unknownLevel (value : String)
  deriving DecidableEq, Repr

/-- The levels of logging, from nothing to everything. -/
def levels : List String :=
  ["off", "error", "warn", "info", "debug", "trace"]

def Refusal.message : Refusal → String
  | unknownKey key =>
    "Unknown config key '" ++ key ++ "'. Valid keys: " ++
      ", ".intercalate (Setting.all.map Setting.key)
  | notPositive setting value =>
    "Invalid " ++ setting.key ++ " value '" ++ value ++ "'. Expected a positive integer"
  | tooLong setting value =>
    "Invalid " ++ setting.key ++ " value '" ++ value ++ "'. Expected at most " ++
      toString Selections.maxLifetime.toInt
  | notBoolean value =>
    "Invalid boolean value '" ++ value ++ "'. Use true/false, yes/no, 1/0, or on/off"
  | unknownLevel value =>
    "Invalid log.level value '" ++ value ++ "'. Valid values: " ++ ", ".intercalate levels

/-- Reads a number above zero that 64 bits with a sign hold, blanks around it being allowed. -/
def positive? (value : String) : Option Int64 :=
  (Number.int64? (Text.trim value.toList)).bind fun n => if 0 < n then some n else none

def lowercased (value : String) : String :=
  String.ofList (Text.lowercase value.toList)

/-- Reads a choice between yes and no, in any case. -/
def boolean? (value : String) : Option Bool :=
  let word := lowercased value
  if word ∈ ["true", "yes", "1", "on"] then some true
  else if word ∈ ["false", "no", "0", "off"] then some false
  else none

/-- Gives a checked value to a setting. -/
def assign (settings : Settings) (setting : Setting) (value : String) : Except Refusal Settings :=
  match setting with
  | .model => .ok { settings with model := some value }
  | .catalog => .ok { settings with catalog := some value }
  | .lifetime => match positive? value with
    | none => .error (.notPositive setting value)
    | some seconds =>
      if Selections.maxLifetime < seconds then .error (.tooLong setting value)
      else .ok { settings with lifetime := some seconds }
  | .pageSize => match positive? value with
    | none => .error (.notPositive setting value)
    | some size => .ok { settings with pageSize := some size.toInt.toNat }
  | .color => match boolean? value with
    | none => .error (.notBoolean value)
    | some color => .ok { settings with color := some color }
  | .level =>
    let level := lowercased value
    if level ∈ levels then .ok { settings with level := some level }
    else .error (.unknownLevel value)

/-- Gives a checked value to the setting with a key. -/
def set (settings : Settings) (key value : String) : Except Refusal Settings :=
  match Setting.ofKey? key with
  | some setting => settings.assign setting value
  | none => .error (.unknownKey key)

/-- The level of logging: all for a verbose run and errors for a quiet one, else as it is set. -/
def logLevel (verbose quiet : Bool) (level : Option String) : String :=
  if verbose then "debug" else if quiet then "error" else level.getD "warn"

end Settings

end ModelQuery
