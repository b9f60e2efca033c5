import ModelQuery.Text.Blank
import ModelQuery.Text.LetterCase

/-! The words that join one part of a filter to the part before it. -/

namespace ModelQuery

/-- How a part of a filter is joined to its left neighbour. The first part has no neighbour and
carries `blank`. -/
inductive Joiner
  | and
  | or
  | blank
  deriving DecidableEq, Repr, Inhabited

namespace Joiner

/-- The word that a joiner is written as. -/
def word : Joiner → String
  | and => "AND"
  | or => "OR"
  | blank => ""

/-- The joiner that exactly these letters spell. -/
def ofLetters? (letters : List Char) : Option Joiner :=
  if Text.sameLetters letters "AND".toList then some and
  else if Text.sameLetters letters "OR".toList then some or
  else none

/-- Reads `AND` or `OR` in any case, with blanks around it, and nothing else. -/
def ofKeyword? (keyword : List Char) : Option Joiner :=
  ofLetters? (Text.trim keyword)

/-- Reads the joining field of a clause: whatever is not `OR` joins with `and`. -/
def ofField (field : List Char) : Joiner :=
  (ofKeyword? field).getD and

end Joiner

end ModelQuery
