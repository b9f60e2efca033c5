import ModelQuery.Filter.Joiner

/-! Criteria: a filter held as data. They are a sequence of comparisons, or groups of which each
holds comparisons or further groups. Fields are kept as they were given. -/

namespace ModelQuery

/-- One comparison of a sequence. -/
structure Criterion where
  category : String
  property : String
  /-- The comparison that is asked for, equality if none is given. -/
  operator : Option String
  value : String
  /-- What joins this comparison to the next one, `AND` if nothing is given. -/
  joiner : Option String
  deriving DecidableEq, Repr, Inhabited

namespace Criteria

/-- Comparisons or further groups, in parentheses. -/
inductive Group
  /-- `joiner` joins the group to the one before it, with `AND` if nothing is given. -/
  | mk (joiner : Option String) (criteria : List Criterion) (groups : List Group)
  deriving Repr, Inhabited

namespace Group

def joiner : Group → Option String
  | mk joiner _ _ => joiner

def criteria : Group → List Criterion
  | mk _ criteria _ => criteria

def groups : Group → List Group
  | mk _ _ groups => groups

end Group

end Criteria

inductive Criteria
  | sequence (criteria : List Criterion)
  | grouped (groups : List Criteria.Group)
  deriving Repr, Inhabited

namespace Criteria

/-- The fields of a comparison that its text consists of. -/
inductive Field
  | category
  | property
  | operator
  | value
  deriving DecidableEq, Repr

def Field.word : Field → String
  | category => "category"
  | property => "property"
  | operator => "operator"
  | value => "value"

/-- Why criteria are no filter. -/
inductive Flaw
  /-- A list holds nothing, or a group neither comparisons nor groups. -/
  | empty
  /-- A field holds a character that means something in filters. -/
  | reserved (field : Field) (text : String) (character : Char)
  | missing (field : Field)
  | unknownJoiner (word : String)
  /-- A group holds both comparisons and groups. -/
  | mixed
  deriving DecidableEq, Repr

def Flaw.message : Flaw → String
  | empty => "criteria are empty"
  | reserved field text character =>
    field.word ++ " '" ++ text ++ "' contains reserved character '" ++
      String.ofList [character] ++ "'"
  | missing field => field.word ++ " must not be empty"
  | unknownJoiner word => "unknown logical operator '" ++ word ++ "' (expected AND or OR)"
  | mixed => "a group may hold criteria or nested groups, not both"

end Criteria

end ModelQuery
