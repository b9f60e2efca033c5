import ModelQuery.Machine.Disk
import ModelQuery.Proofs.Machine.Acts

/-! What a text that is put into a file comes to on a disk that may fail. -/

namespace ModelQuery.Disk

open Act

/-- A machine by itself is one with the sound disk. -/
theorem on_sound {α : Type} (act : [Host (StateM Machine)] → α) : sound.on act = act := rfl

/-- The surroundings are the same on every disk. -/
theorem run_environment? (disk : Disk) (machine : Machine) (name : String) :
    (@Host.environment? (StateM Machine) disk.host name).run machine =
      (machine.environment.lookup name, machine) := rfl

/-- Whether no text is cut off. -/
def NeverCuts (disk : Disk) : Prop :=
  ∀ path text length fault, disk.fate path text ≠ .cut length fault

/-- How a text is put into a file: not at all, in part, for nothing, or as a whole. -/
inductive Puts (disk : Disk) (machine : Machine) (path text : String) :
    Except FileFault Unit → Machine → Prop
  | stopped (fault : FileFault) : Puts disk machine path text (.error fault) machine
  | cut {length : Nat} {fault : FileFault} {files : Files}
      (hfate : disk.fate path text = .cut length fault)
      (hfiles : machine.files.write machine.folder path (front length text) = .ok files) :
      Puts disk machine path text (.error fault) { machine with files }
  | dropped (hfate : disk.fate path text = .dropped) :
      Puts disk machine path text (.ok ()) machine
  | written {files : Files} (hfate : disk.fate path text = .written)
      (hfiles : machine.files.write machine.folder path text = .ok files) :
      Puts disk machine path text (.ok ()) { machine with files }

theorem puts_write (disk : Disk) (machine : Machine) (path text : String) :
    disk.Puts machine path text ((disk.write path text).run machine).1
      ((disk.write path text).run machine).2 := by
  simp only [StateT.run, write, Machine.change]
  cases hfate : disk.fate path text with
  | written =>
    dsimp only
    cases hfiles : machine.files.write machine.folder path text with
    | error fault => exact .stopped fault
    | ok files => exact .written hfate hfiles
  | refused fault =>
    dsimp only
    cases machine.files.write machine.folder path text with
    | error first => exact .stopped first
    | ok files => exact .stopped fault
  | cut length fault =>
    dsimp only
    cases hfiles : machine.files.write machine.folder path (front length text) with
    | error first => exact .stopped first
    | ok files => exact .cut hfate hfiles
  | dropped =>
    dsimp only
    cases machine.files.write machine.folder path text with
    | error first => exact .stopped first
    | ok files => exact .dropped hfate

/-- A write that is attempted on a disk. -/
theorem puts_of_ends {disk : Disk} {machine after : Machine} {path text : String}
    {blame : FileFault → Failure} {result : Except Failure Unit}
    (h : Ends (Command.attempt blame (disk.write path text)) machine result after) :
    ∃ put, result = put.mapError blame ∧ disk.Puts machine path text put after := by
  obtain ⟨hresult, rfl⟩ := ends_attempt_iff.mp h
  exact ⟨_, hresult, disk.puts_write machine path text⟩

end ModelQuery.Disk
