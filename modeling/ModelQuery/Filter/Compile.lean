import ModelQuery.Filter.Plan
import ModelQuery.Filter.Read

/-! Compiling a filter. A filter without parentheses can be cut at its semicolons alone, and a
filter with parentheses is read token by token. -/

namespace ModelQuery

/-- How a filter is read. -/
inductive Route
  /-- Clause by clause; parentheses are refused. -/
  | flat
  /-- Token by token. -/
  | full
  deriving DecidableEq, Repr

namespace Route

def word : Route → String
  | flat => "flat"
  | full => "full"

def isParenthesis (c : Char) : Bool :=
  c == '(' || c == ')'

/-- The route for a filter on which none was asked for. -/
def ofFilter (filter : List Char) : Route :=
  if filter.any isParenthesis then full else flat

end Route

variable {P : Type}

/-- The first parenthesis, as a token at its position. -/
def Scan.parenthesis? (position : Nat) : List Char → Option Placed
  | [] => none
  | c :: rest =>
    if c = '(' then some ⟨.opening, position⟩
    else if c = ')' then some ⟨.closing, position⟩
    else parenthesis? (position + 1) rest

/-- The tree of a filter without parentheses. -/
def Tree.ofFlatFilter (filter : List Char) : Except Fault Tree :=
  if filter.all Text.isBlank then .error .blank
  else match Scan.parenthesis? 0 filter with
    | some ⟨token, position⟩ => .error (.unexpected token position)
    | none => return .ofParts (← Clause.readRun .blank 0 filter)

def compileFlat (resolve : Resolver P) (filter : List Char) : Except Fault (Plan P) := do
  (← Tree.ofFlatFilter filter).plan resolve

def compileFull (resolve : Resolver P) (filter : List Char) : Except Fault (Plan P) := do
  (← Tree.ofFilter filter).plan resolve

/-- Compiles along a route. -/
def compileAlong (resolve : Resolver P) (filter : List Char) : Route → Except Fault (Plan P)
  | .flat => compileFlat resolve filter
  | .full => compileFull resolve filter

/-- Compiles along the route that suits the filter. -/
def compile (resolve : Resolver P) (filter : List Char) : Except Fault (Plan P) :=
  compileAlong resolve filter (Route.ofFilter filter)

end ModelQuery
