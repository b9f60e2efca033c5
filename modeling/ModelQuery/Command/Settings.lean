import ModelQuery.Command.Basic
import ModelQuery.Report.Style

/-! The commands on settings: to show them, to change one, and to show where they are stored. -/

namespace ModelQuery.Command

variable {m : Type → Type} [Monad m] [Host m]

/-- The text that shows one section of the settings. -/
def sectionText (name : String) (entries : List (Option (String × String))) : String :=
  "\n[" ++ name ++ "]\n" ++
    String.join ((entries.filterMap id).map fun (name, value) =>
      "  " ++ name ++ ": " ++ value ++ "\n")

def settingsText (settings : Settings) : String :=
  sectionText "model" [settings.model.map ("path", ·), settings.catalog.map ("catalog", ·)] ++
    sectionText "selection" [settings.lifetime.map fun n => ("ttl_secs", toString n.toInt),
      settings.pageSize.map fun n => ("page_size", toString n)] ++
    sectionText "output" [settings.color.map fun b => ("color", Settings.booleanText b)] ++
    sectionText "log" [settings.level.map ("level", ·)]

/-- The text that shows the settings and the file they are stored in. -/
def settingsReport (context : Context) (isThere : Bool) : String :=
  Report.styled context.colors [.green, .bold] "Configuration" ++ "\n\nFile: " ++ context.file ++
    "\nExists: " ++ Settings.booleanText isThere ++ "\n" ++
    if isThere then settingsText context.settings
    else "\n(No config file exists. Run 'bimq config set <key> <value>' to create one.)\n"

def showSettings (context : Context) : ExceptT Failure m String := do
  let isThere ← ExceptT.lift (Host.isThere context.file)
  if context.json then
    return (Document.object [("config", context.settings.toDocument),
      ("exists", .boolean isThere), ("path", .text context.file)]).pretty ++ "\n"
  else if context.quiet then return ""
  else return settingsReport context isThere

/-- Changes one setting in the file. -/
def setSetting (context : Context) (key value : String) : ExceptT Failure m String := do
  let settings ← Settings.load context.file
  let settings ← orFail (.settings <| .refused ·) (settings.set key value)
  settings.save context.file
  if context.json then
    return (Document.object [("key", .text key), ("path", .text context.file),
      ("status", .text "success"), ("value", .text value)]).pretty ++ "\n"
  else if context.quiet then return ""
  else return "Set " ++ key ++ " = " ++ value ++ "\n"

def showPath (context : Context) : ExceptT Failure m String := do
  if context.json then
    let isThere ← ExceptT.lift (Host.isThere context.file)
    return (Document.object [("exists", .boolean isThere),
      ("path", .text context.file)]).pretty ++ "\n"
  else return context.file ++ "\n"

end ModelQuery.Command
