import ModelQuery.Text.Blank
import ModelQuery.Text.LetterCase

/-! The comparisons that a clause can name, and the kinds of value that each applies to. -/

namespace ModelQuery

/-- How the values of a property are compared. -/
inductive Kind
  | text
  | number
  | integer
  | boolean
  deriving DecidableEq, Repr, Inhabited

namespace Kind

def all : List Kind := [text, number, integer, boolean]

/-- The word for a kind in a catalog. -/
def word : Kind → String
  | text => "text"
  | number => "number"
  | integer => "integer"
  | boolean => "boolean"

/-- What a value of this kind has to be, as told to the user. -/
def describe : Kind → String
  | text => "text"
  | number => "a number"
  | integer => "an integer"
  | boolean => "true/false/yes/no/1/0"

def isNumeric : Kind → Bool
  | number | integer => true
  | text | boolean => false

end Kind

/-- The comparison that a clause asks for. -/
inductive Comparison
  | isEqual
  | isNotEqual
  | contains
  | notContains
  | startsWith
  | notStartsWith
  | endsWith
  | notEndsWith
  | greaterThan
  | greaterOrEqual
  | smallerThan
  | smallerOrEqual
  deriving DecidableEq, Repr, Inhabited

namespace Comparison

def all : List Comparison :=
  [isEqual, isNotEqual, contains, notContains, startsWith, notStartsWith, endsWith, notEndsWith,
    greaterThan, greaterOrEqual, smallerThan, smallerOrEqual]

theorem mem_all (c : Comparison) : c ∈ all := by
  cases c <;> decide

/-- The keyword of a comparison. -/
def word : Comparison → String
  | isEqual => "IS_EQUAL"
  | isNotEqual => "IS_NOT_EQUAL"
  | contains => "CONTAINS"
  | notContains => "NOT_CONTAINS"
  | startsWith => "STARTS_WITH"
  | notStartsWith => "NOT_STARTS_WITH"
  | endsWith => "ENDS_WITH"
  | notEndsWith => "NOT_ENDS_WITH"
  | greaterThan => "GREATER_THAN"
  | greaterOrEqual => "GREATER_OR_EQUAL"
  | smallerThan => "SMALLER_THAN"
  | smallerOrEqual => "SMALLER_OR_EQUAL"

/-- Reads a keyword in any case, with blanks around it. -/
def ofKeyword? (keyword : String) : Option Comparison :=
  all.find? fun c => Text.sameLetters c.word.toList (Text.trim keyword.toList)

/-- Reads the comparison field of a clause: an unknown keyword asks for equality. -/
def ofField (field : String) : Comparison :=
  (ofKeyword? field).getD isEqual

/-- The comparisons with a part of a text. -/
def isTextual : Comparison → Bool
  | contains | notContains | startsWith | notStartsWith | endsWith | notEndsWith => true
  | _ => false

/-- The comparisons by order. -/
def isOrdering : Comparison → Bool
  | greaterThan | greaterOrEqual | smallerThan | smallerOrEqual => true
  | _ => false

/-- Parts are of texts, order is of numbers, and equality is of everything. -/
def appliesTo (c : Comparison) (kind : Kind) : Bool :=
  if c.isTextual then kind = .text
  else if c.isOrdering then kind.isNumeric
  else true

end Comparison

end ModelQuery
