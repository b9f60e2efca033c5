/-! Sections: the text format of settings. Names stand before values, headings part the names into
tables, and a name or heading with dots reaches into a table of a table. A table may be filled from
several places, but each name has one value, and how a table came to be decides what may still be
added to it. -/

namespace ModelQuery.Sections

/-- How a table came to be. -/
inductive Origin
  /-- Under a heading of its own. -/
  | heading
  /-- On the way to the table of a longer heading. -/
  | implied
  /-- On the way to a name with dots. -/
  | dotted
  /-- Between braces; nothing is ever added to it. -/
  | braced
  deriving DecidableEq, Repr

inductive Value
  | text (value : String)
  | integer (value : Int)
  | boolean (value : Bool)
  /-- A number with a fraction or an exponent. No setting holds one, so its value is not kept. -/
  | real
  /-- A date, a time, or both. No setting holds one, so its value is not kept. -/
  | moment
  | list (items : List Value)
  | table (origin : Origin) (entries : List (String × Value))
  /-- The tables under one repeated heading, last first. -/
  | tables (rows : List (List (String × Value)))
  deriving Repr, Inhabited

abbrev Entries := List (String × Value)

namespace Entries

/-- Puts `f` of the value under a name in its place; a new name comes last. -/
def change? (name : String) (f : Option Value → Option Value) : Entries → Option Entries
  | [] => (f none).map fun value => [(name, value)]
  | (key, old) :: rest =>
    if key = name then (f (some old)).map fun value => (key, value) :: rest
    else (change? name f rest).map ((key, old) :: ·)

/-- Gives a value to a name that has none, in the table that `path` leads to. The names of the path
may lead through tables that such paths have made, and through tables that headings imply. -/
def add? (name : String) (value : Value) : List String → Entries → Option Entries
  | [], entries => change? name (fun old => if old.isSome then none else some value) entries
  | step :: path, entries => change? step (fun
      | none => (add? name value path []).map (.table .dotted)
      | some (.table .dotted inner) => (add? name value path inner).map (.table .dotted)
      | some (.table .implied inner) =>
        if path.isEmpty then none else (add? name value path inner).map (.table .implied)
      | some (.tables (row :: rows)) =>
        if path.isEmpty then none
        else (add? name value path row).map fun row => .tables (row :: rows)
      | _ => none) entries

/-- Changes the table under a heading, where a repeated heading stands for its last table. -/
def within? (f : Entries → Option Entries) : List String → Entries → Option Entries
  | [], entries => f entries
  | step :: path, entries => change? step (fun
      | none => (within? f path []).map (.table .implied)
      | some (.table .braced _) => none
      | some (.table origin inner) => (within? f path inner).map (.table origin)
      | some (.tables (row :: rows)) => (within? f path row).map fun row => .tables (row :: rows)
      | _ => none) entries

/-- Opens the table of a heading, which only longer headings may have named before. -/
def openTable? (path : List String) (name : String) : Entries → Option Entries :=
  within? (change? name fun
    | none => some (.table .heading [])
    | some (.table .implied inner) => some (.table .heading inner)
    | _ => none) path

/-- Opens one more table of a repeated heading. -/
def openRow? (path : List String) (name : String) : Entries → Option Entries :=
  within? (change? name fun
    | none => some (.tables [[]])
    | some (.tables rows) => some (.tables ([] :: rows))
    | _ => none) path

def get? (name : String) (entries : Entries) : Option Value :=
  (entries.find? fun entry => entry.1 = name).map Prod.snd

end Entries

end ModelQuery.Sections
