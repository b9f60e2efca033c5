import ModelQuery.Document.Basic
import ModelQuery.Document.Record
import ModelQuery.Sections.Reading
import ModelQuery.Sections.Writing
import ModelQuery.Settings.Basic

/-! Settings as they are stored, in sections with a version, and as they are shown in a document.
What is not known is passed over, so that newer programs may store more. -/

namespace ModelQuery.Settings

/-- Why stored settings are not read. -/
inductive Unreadable
  /-- The text is not well formed, or a setting has a value of another kind. -/
  | malformed
  | newer (version : Nat)
  deriving DecidableEq, Repr

/-- The only version so far. Settings of version 0 are the same. -/
def version : Nat := 1

def Unreadable.message (detail : String) : Unreadable → String
  | malformed => "Failed to parse config: " ++ detail
  | newer found =>
    "config version " ++ toString found ++ " is newer than supported version " ++ toString version

/-! ### Reading -/

def textOf? : Sections.Value → Option String
  | .text s => some s
  | _ => none

def integerOf? : Sections.Value → Option Int
  | .integer n => some n
  | _ => none

def booleanOf? : Sections.Value → Option Bool
  | .boolean b => some b
  | _ => none

def naturalOf? (value : Sections.Value) : Option Nat :=
  (integerOf? value).bind fun n => if n < 0 then none else some n.toNat

/-- The settings of a section in the order of their names, absent ones being `none`. A list stands
for a section if it is long enough, and a moment for an empty one. -/
def fields? (names : List String) : Option Sections.Value → Option (List (Option Sections.Value))
  | none | some .moment => some (names.map fun _ => none)
  | some (.table _ entries) => some (names.map (Sections.Entries.get? · entries))
  | some (.list items) =>
    if names.length ≤ items.length then some ((items.take names.length).map some) else none
  | some (.tables rows) =>
    if names.length ≤ rows.length then
      some ((rows.reverse.take names.length).map fun row => some (.table .heading row))
    else none
  | some _ => none

/-- A setting that may be absent. -/
def field? {α : Type} (read? : Sections.Value → Option α) :
    Option Sections.Value → Option (Option α)
  | none => some none
  | some value => (read? value).map some

/-- The version of stored settings, a number of 32 bits. -/
def versionOf? (entries : Sections.Entries) : Option Nat := do
  match ← field? naturalOf? (Sections.Entries.get? "version" entries) with
  | none => return version
  | some found => if found < Nat.pow 2 32 then return found else none

/-- The settings in sections. -/
def ofEntries? (entries : Sections.Entries) : Option Settings := do
  let model ← fields? ["path", "catalog"] (Sections.Entries.get? "model" entries)
  let selection ← fields? ["ttl_secs", "page_size"] (Sections.Entries.get? "selection" entries)
  let output ← fields? ["color"] (Sections.Entries.get? "output" entries)
  let log ← fields? ["level"] (Sections.Entries.get? "log" entries)
  match model, selection, output, log with
  | [model, catalog], [lifetime, pageSize], [color], [level] => return {
      model := ← field? textOf? model
      catalog := ← field? textOf? catalog
      lifetime := (← field? integerOf? lifetime).map Int64.ofInt
      pageSize := ← field? naturalOf? pageSize
      color := ← field? booleanOf? color
      level := ← field? textOf? level }
  | _, _, _, _ => none

/-- Reads stored settings. -/
def ofText (text : String) : Except Unreadable Settings :=
  match (Sections.ofText? text).bind fun entries => do
      return (← versionOf? entries, ← ofEntries? entries) with
  | none => .error .malformed
  | some (found, settings) => if version < found then .error (.newer found) else .ok settings

/-! ### Writing -/

/-- The line of a setting unless it is absent. -/
def line {α : Type} (name : String) (write : α → String) (value : Option α) : List String :=
  (value.map fun value => Sections.entryLine name (write value)).toList

def booleanText (b : Bool) : String :=
  if b then "true" else "false"

/-- The text that settings are stored as. -/
def render (settings : Settings) : String :=
  "\n".intercalate [
    Sections.entryLine "version" (toString version),
    Sections.table "model" (line "path" Sections.quotedText settings.model ++
      line "catalog" Sections.quotedText settings.catalog),
    Sections.table "selection" (line "ttl_secs" (toString ·.toInt) settings.lifetime ++
      line "page_size" toString settings.pageSize),
    Sections.table "output" (line "color" booleanText settings.color),
    Sections.table "log" (line "level" Sections.quotedText settings.level)]

/-- The document that shows settings. -/
def toDocument (settings : Settings) : Document :=
  .object [
    ("log", .object (Document.present "level" .text settings.level)),
    ("model", .object (Document.present "catalog" .text settings.catalog ++
      Document.present "path" .text settings.model)),
    ("output", .object (Document.present "color" .boolean settings.color)),
    ("selection", .object (
      Document.present "page_size" (fun n => .integer (n : Int)) settings.pageSize ++
      Document.present "ttl_secs" (fun n => .integer n.toInt) settings.lifetime)),
    ("version", .integer version)]

end ModelQuery.Settings
