import ModelQuery.Machine.Basic

/-! Disks that fail. A file is written in two steps: it is emptied, and then the text is put into
it. A disk that is full or breaks stops the second step, and a device keeps nothing of what it is
given. A machine without a disk of its own is one on which nothing goes wrong. -/

namespace ModelQuery

/-- What becomes of a text on its way into a file. -/
inductive Fate
  /-- All of it is in the file. -/
  | written
  /-- The file is not even emptied. -/
  | refused (fault : FileFault)
  /-- The file is emptied, and only so many characters get into it, the last as a whole. -/
  | cut (length : Nat) (fault : FileFault)
  /-- The file takes all of it and keeps what it had. -/
  | dropped
  deriving DecidableEq, Repr

/-- What becomes of the texts that are written to a path. -/
structure Disk where
  fate (path text : String) : Fate

namespace Disk

/-- The disk on which nothing goes wrong. -/
def sound : Disk := ⟨fun _ _ => .written⟩

/-- The first characters of a text. -/
def front (length : Nat) (text : String) : String :=
  String.ofList (text.toList.take length)

/-- Puts a text into a file in the place of what was there, as far as the disk lets it. The disk is
not asked where no file can be. -/
def write (disk : Disk) (path text : String) : StateM Machine (Except FileFault Unit) :=
  fun machine =>
    let put (text : String) := Machine.change (·.write machine.folder path text) machine
    match disk.fate path text with
    | .written => put text
    | .refused fault => ((put text).1.bind fun _ => .error fault, machine)
    | .cut length fault =>
      let (result, after) := put (front length text)
      (result.bind fun _ => .error fault, after)
    | .dropped => ((put text).1, machine)

/-- A machine with this disk. -/
@[reducible] def host (disk : Disk) : Host (StateM Machine) where
  environment? := Host.environment?
  recordedHome? := Host.recordedHome?
  input := Host.input
  read := Host.read
  isThere := Host.isThere
  makeFolders := Host.makeFolders
  write := disk.write
  rename := Host.rename
  now := Host.now
  freshToken := Host.freshToken

/-- What is done on a machine with this disk. -/
def on {α : Type} (disk : Disk) (act : [Host (StateM Machine)] → α) : α :=
  @act disk.host

end Disk

end ModelQuery
