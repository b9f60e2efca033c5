import ModelQuery.Catalog.Predicate
import ModelQuery.Catalog.Suggestion
import ModelQuery.Filter.Clause

/-! Giving clauses a meaning with a catalog. The category is looked up first, then its property,
then the comparison has to suit the property, and last the value has to be of its kind. -/

namespace ModelQuery.Catalog

/-- The resolver of a catalog. -/
def resolver (catalog : Catalog) : Resolver Predicate := fun clause =>
  match catalog.category? clause.category with
  | none =>
    .error (.unknownCategory clause.category (Suggestion.nearest? clause.category catalog.names))
  | some category =>
    match category.property? clause.property with
    | none =>
      .error (.unknownProperty category.name clause.property
        (Suggestion.nearest? clause.property category.propertyNames))
    | some property =>
      let comparison := Comparison.ofField clause.operator
      if comparison.appliesTo property.kind then
        match Operand.ofText? property.kind clause.value with
        | some operand => .ok ⟨category, property, comparison, operand⟩
        | none => .error (.invalidValue property.name clause.value property.kind.describe)
      else .error (.unsupportedComparison property.name comparison.word)

end ModelQuery.Catalog
