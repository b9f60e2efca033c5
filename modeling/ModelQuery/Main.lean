import ModelQuery.Command.Account
import ModelQuery.Command.Usage
import ModelQuery.Selection.Token
import Std.Time.DateTime.Timestamp

/-! The program `bimq` on a real machine. -/

namespace ModelQuery

/-- What is said of a text that cannot be read. -/
def unreadableText : String := "the text is not in the expected form"

/-- The fault with a number of the system, which may come with a minus. -/
def faultOfCode (code : UInt32) (text : String) : FileFault :=
  let code := min code (0 - code)
  if code = 2 then .notFound
  else if code = 17 then .alreadyThere
  else if code = 20 then .notFolder
  else if code = 21 then .isFolder
  else if code = 36 then .nameTooLong
  else .other (text ++ " (os error " ++ toString code ++ ")")

def faultOfError : IO.Error → FileFault
  | .noFileOrDirectory _ code text | .interrupted _ code text => faultOfCode code text
  | .alreadyExists _ code text | .inappropriateType _ code text | .permissionDenied _ code text
  | .invalidArgument _ code text | .resourceExhausted _ code text
  | .noSuchThing _ code text => faultOfCode code text
  | .otherError code text | .resourceBusy code text | .resourceVanished code text
  | .unsupportedOperation code text | .hardwareFault code text
  | .unsatisfiedConstraints code text | .illegalOperation code text | .protocolError code text
  | .timeExpired code text => faultOfCode code text
  | .unexpectedEof => .other "unexpected end of file"
  | .userError _ => .other "stream did not contain valid UTF-8"

def attemptWithFiles {α : Type} (act : IO α) : IO (Except FileFault α) := do
  try return .ok (← act)
  catch error => return .error (faultOfError error)

/-- Does something with the file at a path, if a file can have that path. -/
def attemptAt {α : Type} (path : String) (act : IO α) : IO (Except FileFault α) := do
  if Path.holdsNul path then return .error .nulInName else attemptWithFiles act

instance : Host IO where
  environment? name := IO.getEnv name
  recordedHome? := do
    match ← attemptWithFiles (IO.FS.readFile "/proc/self/status"),
        ← attemptWithFiles (IO.FS.readFile "/etc/passwd") with
    | .ok status, .ok records =>
      return (Account.number? status).bind fun number => Account.home? records number
    | _, _ => return none
  input := attemptWithFiles do (← IO.getStdin).readToEnd
  read path := attemptAt path (IO.FS.readFile path)
  isThere path := do
    match ← attemptAt path (IO.FS.Handle.mk path .read) with
    | .ok _ => return true
    | .error fault =>
      let absent : List FileFault := [.notFound, .notFolder, .nameTooLong, .nulInName]
      return !absent.contains fault
  makeFolders path := attemptAt path do
    if !path.isEmpty then IO.FS.createDirAll path
  write path text := attemptAt path (IO.FS.writeFile path text)
  rename path target := attemptAt (path ++ target) (IO.FS.rename path target)
  now := do
    let time := (← Std.Time.Timestamp.now).val
    return ⟨time.second.val, time.nano.val.toNat⟩
  freshToken := do
    return Selection.token ((← IO.getRandomBytes 16).toList.map UInt8.toNat)

end ModelQuery

/-- Runs the program with these arguments. -/
def main (arguments : List String) : IO UInt32 := do
  let outcome : ModelQuery.Command.Outcome ← ModelQuery.Command.run arguments
  (← IO.getStdout).putStr outcome.shown
  (← IO.getStderr).putStr (outcome.said ModelQuery.unreadableText)
  return outcome.status.toUInt32
