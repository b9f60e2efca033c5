import ModelQuery.Catalog.Resolve

/-! What a catalog answers to a clause, and what each answer rests on. There is one answer to each
clause, so that an answer tells how far the lookup came. -/

namespace ModelQuery.Catalog

/-- The answers to a clause. Each is given only if nothing in front of it went wrong. -/
inductive Answers (catalog : Catalog) (clause : Clause) : Except Mismatch Predicate → Prop
  | unknownCategory (hcategory : catalog.category? clause.category = none) :
    Answers catalog clause (.error (.unknownCategory clause.category
      (Suggestion.nearest? clause.category catalog.names)))
  | unknownProperty {category : Category}
    (hcategory : catalog.category? clause.category = some category)
    (hproperty : category.property? clause.property = none) :
    Answers catalog clause (.error (.unknownProperty category.name clause.property
      (Suggestion.nearest? clause.property category.propertyNames)))
  | unsupportedComparison {category : Category} {property : Property}
    (hcategory : catalog.category? clause.category = some category)
    (hproperty : category.property? clause.property = some property)
    (happlies : (Comparison.ofField clause.operator).appliesTo property.kind = false) :
    Answers catalog clause (.error (.unsupportedComparison property.name
      (Comparison.ofField clause.operator).word))
  | invalidValue {category : Category} {property : Property}
    (hcategory : catalog.category? clause.category = some category)
    (hproperty : category.property? clause.property = some property)
    (happlies : (Comparison.ofField clause.operator).appliesTo property.kind = true)
    (hoperand : Operand.ofText? property.kind clause.value = none) :
    Answers catalog clause
      (.error (.invalidValue property.name clause.value property.kind.describe))
  | predicate {category : Category} {property : Property} {operand : Operand}
    (hcategory : catalog.category? clause.category = some category)
    (hproperty : category.property? clause.property = some property)
    (happlies : (Comparison.ofField clause.operator).appliesTo property.kind = true)
    (hoperand : Operand.ofText? property.kind clause.value = some operand) :
    Answers catalog clause (.ok ⟨category, property, Comparison.ofField clause.operator, operand⟩)

variable {catalog : Catalog} {clause : Clause} {answer : Except Mismatch Predicate}

theorem Answers.resolver_eq (h : Answers catalog clause answer) :
    catalog.resolver clause = answer := by
  cases h with
  | unknownCategory hcategory => simp only [resolver, hcategory]
  | unknownProperty hcategory hproperty => simp only [resolver, hcategory, hproperty]
  | unsupportedComparison hcategory hproperty happlies =>
    simp [resolver, hcategory, hproperty, happlies]
  | invalidValue hcategory hproperty happlies hoperand =>
    simp only [resolver, hcategory, hproperty, happlies, hoperand, if_true]
  | predicate hcategory hproperty happlies hoperand =>
    simp only [resolver, hcategory, hproperty, happlies, hoperand, if_true]

theorem exists_answers (catalog : Catalog) (clause : Clause) : ∃ answer, Answers catalog clause answer := by
  cases hcategory : catalog.category? clause.category with
  | none => exact ⟨_, .unknownCategory hcategory⟩
  | some category =>
    cases hproperty : category.property? clause.property with
    | none => exact ⟨_, .unknownProperty hcategory hproperty⟩
    | some property =>
      cases happlies : (Comparison.ofField clause.operator).appliesTo property.kind with
      | false => exact ⟨_, .unsupportedComparison hcategory hproperty happlies⟩
      | true =>
        cases hoperand : Operand.ofText? property.kind clause.value with
        | none => exact ⟨_, .invalidValue hcategory hproperty happlies hoperand⟩
        | some operand => exact ⟨_, .predicate hcategory hproperty happlies hoperand⟩

theorem answers_iff : Answers catalog clause answer ↔ catalog.resolver clause = answer := by
  refine ⟨Answers.resolver_eq, fun h => ?_⟩
  obtain ⟨given, hgiven⟩ := exists_answers catalog clause
  rwa [← h, hgiven.resolver_eq]

theorem resolver_eq_ok {category : Category} {property : Property} {comparison : Comparison}
    {operand : Operand} (hcategory : catalog.category? clause.category = some category)
    (hproperty : category.property? clause.property = some property)
    (hcomparison : Comparison.ofField clause.operator = comparison)
    (happlies : comparison.appliesTo property.kind = true)
    (hoperand : Operand.ofText? property.kind clause.value = some operand) :
    catalog.resolver clause = .ok ⟨category, property, comparison, operand⟩ := by
  subst hcomparison
  exact (Answers.predicate hcategory hproperty happlies hoperand).resolver_eq

end ModelQuery.Catalog
