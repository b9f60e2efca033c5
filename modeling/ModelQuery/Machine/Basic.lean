import ModelQuery.Machine.Files

/-! A machine in memory, on which commands can run. Its clock and its supply of tokens are
sequences, of which each look takes the next term. What is written on it gets into the files as a
whole, so that only the files themselves can be in the way of it. -/

namespace ModelQuery

structure Machine where
  environment : List (String × String)
  /-- The home folder on record. -/
  home : Option String
  input : String
  /-- The folder of the program. -/
  folder : Place
  files : Files
  clock : Nat → Instant
  /-- How often the time was told. -/
  ticks : Nat
  tokens : Nat → String
  /-- How many tokens were given out. -/
  drawn : Nat

namespace Machine

/-- Does something with the files. If they do not allow it, they stay as they are. -/
def change (act : Files → Except FileFault Files) : StateM Machine (Except FileFault Unit) :=
  fun machine => match act machine.files with
    | .ok files => (.ok (), { machine with files })
    | .error fault => (.error fault, machine)

instance : Host (StateM Machine) where
  environment? name := fun machine => (machine.environment.lookup name, machine)
  recordedHome? := fun machine => (machine.home, machine)
  input := fun machine => (.ok machine.input, machine)
  read path := fun machine => (machine.files.read machine.folder path, machine)
  isThere path := fun machine => (machine.files.isThere machine.folder path, machine)
  makeFolders path := fun machine =>
    let (files, result) := machine.files.makeFolders machine.folder path
    (result, { machine with files })
  write path text := fun machine =>
    change (·.write machine.folder path text) machine
  rename path target := fun machine =>
    change (·.rename machine.folder path target) machine
  now := fun machine => (machine.clock machine.ticks, { machine with ticks := machine.ticks + 1 })
  freshToken := fun machine =>
    (machine.tokens machine.drawn, { machine with drawn := machine.drawn + 1 })

end Machine

end ModelQuery
