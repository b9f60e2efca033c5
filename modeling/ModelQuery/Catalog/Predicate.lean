import ModelQuery.Catalog.Basic
import ModelQuery.Object.Operand
import ModelQuery.Text.Lowercase
import ModelQuery.Text.Within

/-! Predicates on objects. An object outside the category, or without the property, satisfies none,
not even one that asks for a difference. -/

namespace ModelQuery

/-- A clause with its meaning: which property of which objects is compared with what. -/
structure Predicate where
  category : Category
  property : Property
  comparison : Comparison
  operand : Operand
  deriving BEq, Repr

namespace Comparison

/-- Whether a comparison accepts this order of two values. -/
def acceptsOrder (comparison : Comparison) (order : Ordering) : Bool :=
  match comparison with
  | isEqual => order == .eq
  | isNotEqual => order != .eq
  | greaterThan => order == .gt
  | greaterOrEqual => order != .lt
  | smallerThan => order == .lt
  | smallerOrEqual => order != .gt
  | _ => false

/-- Whether a comparison accepts a text beside the one it was given, both in lower case. -/
def acceptsText (comparison : Comparison) (actual expected : List Char) : Bool :=
  match comparison with
  | isEqual => actual == expected
  | isNotEqual => actual != expected
  | contains => Text.isWithin expected actual
  | notContains => !Text.isWithin expected actual
  | startsWith => expected.isPrefixOf actual
  | notStartsWith => !expected.isPrefixOf actual
  | endsWith => expected.isSuffixOf actual
  | notEndsWith => !expected.isSuffixOf actual
  | _ => false

/-- Whether a comparison accepts a truth value beside the one it was given. -/
def acceptsTruth (comparison : Comparison) (actual expected : Bool) : Bool :=
  match comparison with
  | isEqual => actual == expected
  | isNotEqual => actual != expected
  | _ => false

end Comparison

/-- Doubles that differ by no more than this are equal. -/
def tolerance : Float := 1e-6

/-- The order of two doubles, `none` if one of them is no number. -/
def orderWithin (a b : Float) : Option Ordering :=
  if (a - b).abs ≤ tolerance then some .eq
  else if a < b then some .lt
  else if b < a then some .gt
  else if a == b then some .eq
  else none

namespace Predicate

/-- Compares a stored value. Texts are compared in lower case, and a value that cannot be read as
the kind of the property is never accepted. -/
def accepts (predicate : Predicate) (actual : Value) : Bool :=
  match predicate.operand with
  | .text expected =>
    predicate.comparison.acceptsText (Text.lowercase actual.render.toList)
      (Text.lowercase expected.toList)
  | .number expected =>
    match actual.float?.bind (orderWithin · expected) with
    | some order => predicate.comparison.acceptsOrder order
    | none => false
  | .integer expected =>
    match actual.int64? with
    | some n => predicate.comparison.acceptsOrder (compare n.toInt expected.toInt)
    | none => false
  | .boolean expected =>
    match actual.truth? with
    | some b => predicate.comparison.acceptsTruth b expected
    | none => false

/-- The value that an object stores under the first of the property's names that it has. -/
def stored? (predicate : Predicate) (object : Object) : Option Value :=
  predicate.property.names.findSome? object.property?

def holds (predicate : Predicate) (object : Object) : Bool :=
  predicate.category.contains object.category &&
    match predicate.stored? object with
    | some actual => predicate.accepts actual
    | none => false

def render (predicate : Predicate) : String :=
  predicate.category.name ++ "." ++ predicate.property.name ++ " " ++
    predicate.comparison.word ++ " " ++ predicate.operand.render

end Predicate

end ModelQuery
