import ModelQuery.Filter.Clause
import ModelQuery.Filter.Token

/-! What can be wrong with a filter. -/

namespace ModelQuery

/-- The part of the work that a fault belongs to. -/
inductive Stage
  | tokenize
  | parse
  | build
  deriving DecidableEq, Repr

def Stage.word : Stage → String
  | .tokenize => "tokenize"
  | .parse => "parse"
  | .build => "build"

inductive Fault
  /-- There is nothing but blanks. -/
  | blank
  /-- So many parentheses are never closed. -/
  | unclosed (missing : Nat)
  /-- The parenthesis that closes here was never opened. -/
  | unopened (position : Nat)
  /-- The clause text that starts here is blank. -/
  | blankClauses (position : Nat)
  /-- The token cannot stand here. -/
  | unexpected (token : Token) (position : Nat)
  /-- The clause text has fewer than four fields. -/
  | shortClause (text : String) (position fields : Nat)
  /-- The filter was complete before this token. -/
  | trailing (token : Token) (position : Nat)
  /-- A group has no children. -/
  | emptyGroup
  /-- A group has not exactly one joiner between any two children. -/
  | joinerCount (children joiners : Nat)
  /-- The resolver refused the clause. -/
  | unresolved (clause : Clause) (cause : Mismatch)
  deriving DecidableEq, Repr

namespace Fault

def stage : Fault → Stage
  | blank | unclosed _ | unopened _ | blankClauses _ => .tokenize
  | unexpected .. | shortClause .. | trailing .. => .parse
  | emptyGroup | joinerCount .. | unresolved .. => .build

/-- Where in the filter the fault lies, when it lies at one place. -/
def position? : Fault → Option Nat
  | unopened position | blankClauses position | unexpected _ position | shortClause _ position _
  | trailing _ position => some position
  | blank | unclosed _ | emptyGroup | joinerCount .. | unresolved .. => none

/-- The clause at fault, when it is one. -/
def clause? : Fault → Option Clause
  | unresolved clause _ => some clause
  | _ => none

def message : Fault → String
  | blank => "filter expression is empty"
  | unclosed missing =>
    "unmatched opening parenthesis (" ++ toString missing ++ " missing ')')"
  | unopened position =>
    "unmatched closing parenthesis at position " ++ toString position
  | blankClauses position => "empty expression at position " ++ toString position
  | unexpected token position =>
    "unexpected " ++ token.describe ++ " at position " ++ toString position
  | shortClause text position fields =>
    "invalid clause '" ++ text ++ "' at position " ++ toString position ++
      ": expected at least 4 '|'-separated fields, found " ++ toString fields
  | trailing token position =>
    "unexpected trailing " ++ token.describe ++ " at position " ++ toString position
  | emptyGroup => "filter group has no children"
  | joinerCount children joiners =>
    "filter group has " ++ toString children ++ " children but " ++ toString joiners ++
      " operators"
  | unresolved clause cause =>
    "cannot resolve '" ++ clause.render ++ "': " ++ cause.message

end Fault

end ModelQuery
