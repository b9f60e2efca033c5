import ModelQuery.Selection.Instant

/-! What a command asks of the machine it runs on: its variables, its input, its files, the time and
texts that nobody has used before. -/

namespace ModelQuery

/-- Why something could not be done with a file. -/
inductive FileFault
  | notFound
  | alreadyThere
  | notFolder
  | isFolder
  | nameTooLong
  /-- The path holds the character that ends names. -/
  | nulInName
  | other (text : String)
  deriving DecidableEq, Repr

def FileFault.message : FileFault → String
  | notFound => "No such file or directory (os error 2)"
  | alreadyThere => "File exists (os error 17)"
  | notFolder => "Not a directory (os error 20)"
  | isFolder => "Is a directory (os error 21)"
  | nameTooLong => "File name too long (os error 36)"
  | nulInName => "file name contained an unexpected NUL byte"
  | other text => text

class Host (m : Type → Type) where
  /-- A variable of the surroundings. -/
  environment? (name : String) : m (Option String)
  /-- The home folder that is on record for the user. -/
  recordedHome? : m (Option String)
  /-- All of the input. -/
  input : m (Except FileFault String)
  read (path : String) : m (Except FileFault String)
  isThere (path : String) : m Bool
  /-- Makes a folder and those above it, as far as they are not there. -/
  makeFolders (path : String) : m (Except FileFault Unit)
  /-- Puts a text into a file in the place of what was there. -/
  write (path text : String) : m (Except FileFault Unit)
  /-- Gives a file the place and the name of another, which is gone then. -/
  rename (path target : String) : m (Except FileFault Unit)
  now : m Instant
  freshToken : m String

end ModelQuery
