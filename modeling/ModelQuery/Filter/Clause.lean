/-! A clause is the smallest filter: four fields that name what is compared with what. The fields
are kept as they were written, and a resolver gives them a meaning. -/

namespace ModelQuery

/-- One comparison, `category|property|operator|value`. -/
structure Clause where
  category : String
  property : String
  operator : String
  value : String
  deriving DecidableEq, Repr, Inhabited

namespace Clause

def render (c : Clause) : String :=
  c.category ++ "|" ++ c.property ++ "|" ++ c.operator ++ "|" ++ c.value

end Clause

/-- Why a clause has no meaning. -/
inductive Mismatch
  | unknownCategory (category : String) (suggestion : Option String)
  | unknownProperty (category property : String) (suggestion : Option String)
  /-- The value is none of those that are expected. -/
  | invalidValue (property value expected : String)
  /-- The operator does not suit the property. -/
  | unsupportedComparison (property operator : String)
  deriving DecidableEq, Repr

namespace Mismatch

/-- The known name that the user may have meant. -/
def suggestion : Mismatch → Option String
  | unknownCategory _ suggestion => suggestion
  | unknownProperty _ _ suggestion => suggestion
  | invalidValue .. => none
  | unsupportedComparison .. => none

private def didYouMean : Option String → String
  | some name => " (did you mean '" ++ name ++ "'?)"
  | none => ""

def message : Mismatch → String
  | unknownCategory category suggestion =>
    "unknown category '" ++ category ++ "'" ++ didYouMean suggestion
  | unknownProperty category property suggestion =>
    "unknown property '" ++ property ++ "' for category '" ++ category ++ "'" ++
      didYouMean suggestion
  | invalidValue property value expected =>
    "invalid value '" ++ value ++ "' for property '" ++ property ++ "' (expected " ++
      expected ++ ")"
  | unsupportedComparison property operator =>
    "operator " ++ operator ++ " is not supported for property '" ++ property ++ "'"

end Mismatch

/-- Gives a clause its meaning, a predicate of type `P`, or tells why it has none. -/
abbrev Resolver (P : Type) := Clause → Except Mismatch P

/-- The resolver under which every clause means itself. -/
def Resolver.verbatim : Resolver Clause := .ok

end ModelQuery
