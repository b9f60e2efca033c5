import ModelQuery.Command.Host
import ModelQuery.Criteria.Basic
import ModelQuery.Document.Writing
import ModelQuery.Filter.Fault
import ModelQuery.Object.Model
import ModelQuery.Settings.Stored

/-! Failures of commands: what they are called, how they end the program, and what is told of
them. -/

namespace ModelQuery

/-- Why the stored selections cannot be used. -/
inductive StoreFault
  /-- There is no folder to keep them in. -/
  | homeless
  | unreadable (path : String) (fault : FileFault)
  /-- What is stored is no document, or none of selections. -/
  | malformed
  | noFolder (path : String) (fault : FileFault)
  | unwritable (path : String) (fault : FileFault)
  deriving DecidableEq, Repr

def StoreFault.message (detail : String) : StoreFault → String
  | homeless => "failed to determine cache directory: no valid home directory found"
  | unreadable path fault =>
    "failed to read selection file '" ++ path ++ "': " ++ fault.message
  | malformed => "JSON error: " ++ detail
  | noFolder path fault =>
    "failed to create cache directory '" ++ path ++ "': " ++ fault.message
  | unwritable path fault =>
    "failed to write selection file '" ++ path ++ "': " ++ fault.message

/-- What is wrong with the settings. -/
inductive SettingsFault
  /-- There is no folder to keep them in. -/
  | homeless
  | unread (fault : FileFault)
  | unreadable (cause : Settings.Unreadable)
  | noFolder (fault : FileFault)
  | unwritable (fault : FileFault)
  | refused (refusal : Settings.Refusal)
  /-- Neither the command nor the settings name a model. -/
  | noModel
  /-- The lifetime of selections in the settings is out of range. -/
  | lifetime (seconds : Int64)
  deriving DecidableEq, Repr

def SettingsFault.message (detail : String) : SettingsFault → String
  | homeless => "Could not determine config directory"
  | unread fault => "Failed to read config: " ++ fault.message
  | unreadable cause => cause.message detail
  | noFolder fault => "Failed to create config directory: " ++ fault.message
  | unwritable fault => "Failed to write config: " ++ fault.message
  | refused refusal => refusal.message
  | noModel =>
    "no model file given; pass --model or run 'bimq config set model.path <FILE>'"
  | lifetime seconds =>
    "Invalid selection.ttl_secs value '" ++ toString seconds.toInt ++ "'. Expected 1 to " ++
      toString Selections.maxLifetime.toInt

/-- Why a command fails. -/
inductive Failure
  | filter (fault : Fault)
  /-- A text is no document of criteria. -/
  | malformedCriteria
  | criteria (flaw : Criteria.Flaw)
  /-- The file of a model or a catalog cannot be read. -/
  | unreadable (path : String) (fault : FileFault)
  | model (error : LoadError)
  | store (fault : StoreFault)
  /-- No selection is kept under a token, or no longer. -/
  | noSelection (token : String)
  | settings (fault : SettingsFault)
  /-- The criteria or the input cannot be read. -/
  | source (fault : FileFault)
  deriving DecidableEq, Repr

namespace Failure

/-- What is told of a failure. `detail` is said of a text that cannot be read. -/
def message (detail : String) : Failure → String
  | filter fault => "filter error: " ++ fault.message
  | malformedCriteria => "criteria error: invalid criteria document: " ++ detail
  | criteria flaw => "criteria error: " ++ flaw.message
  | unreadable path fault =>
    "model error: failed to read '" ++ path ++ "': " ++ fault.message
  | model error => "model error: " ++ error.message detail
  | store fault => "selection error: " ++ fault.message detail
  | noSelection token => "selection '" ++ token ++ "' not found or expired"
  | settings fault => "configuration error: " ++ fault.message detail
  | source fault => "I/O error: " ++ fault.message

/-- The name of a kind of failure. -/
def code : Failure → String
  | filter _ => "FILTER_ERROR"
  | malformedCriteria | criteria _ => "CRITERIA_ERROR"
  | unreadable .. | model _ => "MODEL_ERROR"
  | store _ => "SELECTION_ERROR"
  | noSelection _ => "SELECTION_NOT_FOUND"
  | settings _ => "CONFIG_ERROR"
  | source _ => "IO_ERROR"

/-- The number that a program ends with after a failure. -/
def status : Failure → Nat
  | filter _ | malformedCriteria | criteria _ | model _ => 1
  | unreadable .. | source _ => 3
  | noSelection _ => 4
  | store _ | settings _ => 5

/-- Where in a filter the failure is. -/
def placeEntries (fault : Fault) : List (String × Document) :=
  Document.present "position" (fun n => .integer (n : Int)) fault.position? ++
    [("stage", .text fault.stage.word)]

/-- The document that tells of a failure. -/
def document (detail : String) (failure : Failure) : Document :=
  let common : List (String × Document) :=
    [("code", .text failure.code), ("message", .text (failure.message detail))]
  .object [("error", .object (match failure with
    | filter fault =>
      Document.present "clause" (fun clause => .text clause.render) fault.clause? ++ common ++
        placeEntries fault
    | _ => common))]

end Failure

end ModelQuery
