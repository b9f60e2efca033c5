import ModelQuery.Command.Failure
import ModelQuery.Command.Path
import ModelQuery.Selection.Documented

/-! Where selections and settings are stored, and how they are fetched and put back. A file that is
not there stands for no selections and for no settings. -/

namespace ModelQuery

namespace Command

variable {m : Type → Type} [Monad m] [Host m]

/-- Does what may go wrong with a file, and says which failure that is. -/
def attempt {α : Type} (blame : FileFault → Failure) (act : m (Except FileFault α)) :
    ExceptT Failure m α :=
  ExceptT.mk do
    match ← act with
    | .ok result => return .ok result
    | .error fault => return .error (blame fault)

/-- The folder of the user: the one that the surroundings name, or the one on record. -/
def home? : m (Option String) := do
  match (← Host.environment? "HOME").filter (!·.isEmpty) with
  | some home => return some home
  | none => Host.recordedHome?

end Command

/-- The files of the stored selections. -/
structure Store where
  folder : String
  /-- The file that holds them. -/
  file : String
  /-- The file that is written first and then takes the place of the other. -/
  draft : String
  deriving DecidableEq, Repr

namespace Store

variable {m : Type → Type} [Monad m] [Host m]

def inFolder (caches : String) : Store :=
  let folder := Path.child caches "bimq"
  ⟨folder, Path.child folder "selections.json", Path.child folder "selections.tmp"⟩

/-- The store of the user, which is among the caches. -/
def find : ExceptT Failure m Store := do
  match ← ExceptT.lift Command.home? with
  | none => throw (.store .homeless)
  | some home =>
    let caches ← ExceptT.lift (Host.environment? "XDG_CACHE_HOME")
    return inFolder ((caches.filter Path.isAbsolute).getD (Path.child home ".cache"))

/-- The selections that a text stands for. -/
def ofText (text : String) : Except Failure Selections :=
  match Selections.ofText? text with
  | some selections => .ok selections
  | none => .error (.store .malformed)

def load (store : Store) : ExceptT Failure m Selections := do
  match ← ExceptT.lift (Host.read store.file) with
  | .ok text => ExceptT.mk (pure (ofText text))
  | .error .notFound => return .empty
  | .error fault => throw (.store (.unreadable store.file fault))

/-- Writes the selections in one go, so that the file is never half written. -/
def save (store : Store) (selections : Selections) : ExceptT Failure m Unit := do
  Command.attempt (.store <| .noFolder store.folder ·) (Host.makeFolders store.folder)
  Command.attempt (.store <| .unwritable store.draft ·)
    (Host.write store.draft selections.render)
  Command.attempt (.store <| .unwritable store.file ·) (Host.rename store.draft store.file)

end Store

namespace Settings

variable {m : Type → Type} [Monad m] [Host m]

/-- The file of the settings: the one that was named, or one in the folder of the user. -/
def findFile (named : Option String) : ExceptT Failure m String := do
  if let some path := named then return path
  let folder ← match ← ExceptT.lift (Host.environment? "XDG_CONFIG_HOME") with
    | some folder => pure folder
    | none => match ← ExceptT.lift Command.home? with
      | some home => pure (Path.child home ".config")
      | none => throw (.settings .homeless)
  return Path.child (Path.child folder "bimq") "config.toml"

def load (file : String) : ExceptT Failure m Settings := do
  if !(← ExceptT.lift (Host.isThere file)) then return .unset
  let text ← Command.attempt (.settings <| .unread ·) (Host.read file)
  match ofText text with
  | .ok settings => return settings
  | .error cause => throw (.settings (.unreadable cause))

def save (file : String) (settings : Settings) : ExceptT Failure m Unit := do
  if let some folder := Path.folder? file then
    Command.attempt (.settings <| .noFolder ·) (Host.makeFolders folder)
  Command.attempt (.settings <| .unwritable ·) (Host.write file settings.render)

end Settings

end ModelQuery
