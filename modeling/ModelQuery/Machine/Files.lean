import ModelQuery.Command.Host
import ModelQuery.Command.Path
import ModelQuery.Machine.Place

/-! Files in memory. What lies at a place is kept in a table, and the root is always a folder. -/

namespace ModelQuery

inductive Files.Entry
  | folder
  | file (text : String)
  deriving DecidableEq, Repr

structure Files where
  entries : List (Place × Files.Entry)
  deriving DecidableEq, Repr

namespace Files

def empty : Files := ⟨[]⟩

def content? (files : Files) (place : Place) : Option Entry :=
  if place = .root then some .folder else files.entries.lookup place

def put (files : Files) (place : Place) (entry : Entry) : Files :=
  ⟨(place, entry) :: files.entries.filter (·.1 ≠ place)⟩

def remove (files : Files) (place : Place) : Files :=
  ⟨files.entries.filter (·.1 ≠ place)⟩

/-- How many bytes a name may have. -/
def maxName : Nat := 255

/-- How many bytes a path may have. -/
def maxPath : Nat := 4095

/-- Follows one name of a path from a folder. -/
def enter (place : Place) (name : String) : Except FileFault Place :=
  if name = "" ∨ name = "." then .ok place
  else if name = ".." then .ok place.around
  else if maxName < name.utf8ByteSize then .error .nameTooLong
  else .ok (place.inside name)

/-- Follows one name of a path from a place that has to be a folder. -/
def step (files : Files) (place : Place) (name : String) : Except FileFault Place :=
  match files.content? place with
  | none => .error .notFound
  | some (.file _) => .error .notFolder
  | some .folder => enter place name

/-- The names in a path; there are empty ones beside slashes that lead nowhere. -/
def names (path : String) : List String :=
  (Text.pieces '/' path.toList).map String.ofList

/-- Where a path starts: at the root, or in the folder of the program. -/
def start (folder : Place) (path : String) : Place :=
  if Path.isAbsolute path then .root else folder

/-- Whether a path can be followed at all, whatever lies where. -/
def accept (path : String) : Except FileFault Unit :=
  if Path.holdsNul path then .error .nulInName
  else if maxPath < path.utf8ByteSize then .error .nameTooLong
  else .ok ()

/-- The place that a path leads to. All that is above it is a folder, but nothing need be there. -/
def locate (files : Files) (folder : Place) (path : String) : Except FileFault Place := do
  accept path
  if path.isEmpty then .error .notFound
  else (names path).foldlM files.step (start folder path)

def read (files : Files) (folder : Place) (path : String) : Except FileFault String := do
  match files.content? (← files.locate folder path) with
  | none => .error .notFound
  | some .folder => .error .isFolder
  | some (.file text) => return text

def isThere (files : Files) (folder : Place) (path : String) : Bool :=
  match files.locate folder path with
  | .ok place => (files.content? place).isSome
  | .error _ => false

/-- The names to follow to the place where a file is written. If a slash stands behind the last of
them it asks for a folder, and so does not count more than the folder around it. -/
def namesToWrite (path : String) : List String :=
  let named := (names path).reverse.dropWhile String.isEmpty
  (if path.endsWith "/" then "." :: named.tail else named).reverse

/-- Puts a text into a file in the place of what was there. -/
def write (files : Files) (folder : Place) (path text : String) : Except FileFault Files := do
  accept path
  if path.isEmpty then .error .notFound
  else
    let place ← (namesToWrite path).foldlM files.step (start folder path)
    if files.content? place = some .folder then .error .isFolder
    else return files.put place (.file text)

/-- Makes the folders that names lead to from a place, and tells what was in the way of the next.
A file on the way to the last of them is found before any is made; `begun` says that one was. -/
def makeFrom (files : Files) (place : Place) (begun : Bool) :
    List String → Files × Except FileFault Unit
  | [] => (files, .ok ())
  | name :: rest =>
    match enter place name with
    | .error fault => (files, .error fault)
    | .ok next => match files.content? next with
      | none => makeFrom (files.put next .folder) next true rest
      | some .folder => makeFrom files next begun rest
      | some (.file _) =>
        (files, .error (if begun || rest.isEmpty then .alreadyThere else .notFolder))

def makeFolders (files : Files) (folder : Place) (path : String) :
    Files × Except FileFault Unit :=
  match accept path with
  | .error fault => (files, .error fault)
  | .ok () => files.makeFrom (start folder path) false (names path)

def rename (files : Files) (folder : Place) (path target : String) : Except FileFault Files := do
  let source ← files.locate folder path
  let target ← files.locate folder target
  match files.content? source, files.content? target with
  | none, _ => .error .notFound
  | some .folder, _ | _, some .folder => .error .isFolder
  | some (.file text), _ => return (files.remove source).put target (.file text)

theorem lookup_filter_ne {place other : Place} (h : other ≠ place)
    (entries : List (Place × Entry)) :
    (entries.filter (·.1 ≠ place)).lookup other = entries.lookup other := by
  induction entries with
  | nil => rfl
  | cons head rest ih =>
    obtain ⟨key, value⟩ := head
    by_cases hk : key = place
    · subst hk
      simpa [List.lookup_cons, beq_eq_false_iff_ne.mpr h] using ih
    · rw [List.filter_cons_of_pos (by simpa using hk), List.lookup_cons, List.lookup_cons, ih]

theorem content?_put (files : Files) (place other : Place) (entry : Entry) (h : place ≠ .root) :
    (files.put place entry).content? other =
      if other = place then some entry else files.content? other := by
  by_cases ho : other = place
  · subst ho
    simp [content?, put, h]
  · by_cases hr : other = .root
    · simp [content?, hr, h.symm]
    · simp only [content?, put, hr, if_false, ho, List.lookup_cons, beq_eq_false_iff_ne.mpr ho]
      exact lookup_filter_ne ho _

end Files

end ModelQuery
