import ModelQuery.Filter.Compile

/-! Requests: what the program is asked to do. -/

namespace ModelQuery

/-- Where a filter comes from. -/
inductive Source
  | filter (text : String)
  /-- Criteria in a file, where `-` stands for the input. -/
  | criteria (path : String)
  deriving DecidableEq, Repr

/-- Which part of a selection is shown. -/
structure Window where
  /-- The most ids to show, unless the settings are to decide. -/
  limit : Option Nat
  offset : Nat
  /-- Shows all ids from the offset on. -/
  all : Bool
  deriving DecidableEq, Repr

/-- The shells that a completion script can be written for. -/
inductive Shell
  | bash
  | zsh
  | fish
  | powershell
  deriving DecidableEq, Repr

def Shell.all : List Shell :=
  [.bash, .zsh, .fish, .powershell]

def Shell.word : Shell → String
  | .bash => "bash"
  | .zsh => "zsh"
  | .fish => "fish"
  | .powershell => "powershell"

/-- How to compile a filter, and what to tell of it. -/
structure Inspection where
  source : Source
  /-- The route, unless the filter is to decide. -/
  route : Option Route
  tokens : Bool
  tree : Bool
  /-- Checks the clauses against a catalog. -/
  resolve : Bool
  catalog : Option String
  deriving DecidableEq, Repr

/-- What to look for, and in which model. -/
structure Search where
  source : Source
  model : Option String
  catalog : Option String
  window : Window
  deriving DecidableEq, Repr

inductive Task
  | compile (inspection : Inspection)
  | select (search : Search)
  | page (token : String) (window : Window)
  | showSettings
  | setSetting (key value : String)
  | showPath
  | completions (shell : Shell)
  | help
  deriving DecidableEq, Repr

structure Request where
  verbose : Bool
  quiet : Bool
  /-- Answers with documents. -/
  json : Bool
  /-- Answers without colors. -/
  plain : Bool
  /-- The file with the settings, if one was named. -/
  settings : Option String
  task : Task
  deriving DecidableEq, Repr

end ModelQuery
