import ModelQuery.Proofs.Catalog.Answers
import ModelQuery.Proofs.Catalog.Partition
import ModelQuery.Proofs.Text.Lowering

/-! Texts in which a value stands as it is spelled. Comparing in lower case finds the value there,
unless one of its sigmas ends a word in the value and not in the text, or the other way round. -/

namespace ModelQuery

open Text

namespace Comparison

/-- Whether a comparison looks for a text at a place with this much in front of it and behind. -/
def LooksBetween (front back : List Char) : Comparison → Prop
  | isEqual => front = [] ∧ back = []
  | startsWith => front = []
  | endsWith => back = []
  | contains => True
  | _ => False

/-- Whether a comparison looks for a text at that end where this place is. -/
def LooksAtEnd (front back : List Char) (c : Comparison) : Prop :=
  c = startsWith ∧ front = [] ∨ c = endsWith ∧ back = []

theorem opposite_opposite (c : Comparison) : c.opposite.opposite = c := by
  cases c <;> rfl

variable {c : Comparison} {front part back : List Char}

theorem LooksBetween.isOrdering (h : c.LooksBetween front back) : c.isOrdering = false := by
  cases c <;> first | rfl | exact h.elim

theorem LooksAtEnd.looksBetween (h : c.LooksAtEnd front back) : c.LooksBetween front back := by
  rcases h with ⟨rfl, rfl⟩ | ⟨rfl, rfl⟩ <;> rfl

theorem LooksBetween.acceptsText (h : c.LooksBetween front back)
    (hkept : KeepsSigmas front part back) :
    c.acceptsText (lowercase (front ++ part ++ back)) (lowercase part) = true := by
  cases c with
  | isEqual =>
    obtain ⟨rfl, rfl⟩ := h
    simp [Comparison.acceptsText]
  | contains => exact (isWithin_iff _ _).mpr (lowercase_infix_of_keepsSigmas hkept)
  | startsWith =>
    obtain rfl : front = [] := h
    exact List.isPrefixOf_iff_prefix.mpr (lowercase_prefix_iff.mpr hkept)
  | endsWith =>
    obtain rfl : back = [] := h
    rw [List.append_nil]
    exact List.isSuffixOf_iff_suffix.mpr (lowercase_suffix_iff.mpr hkept)
  | _ => exact h.elim

/-- At either end of a text a sigma that is not kept cannot be made up for. -/
theorem acceptsText_of_not_kept (hkept : ¬ KeepsSigmas front part back)
    (h : c.LooksAtEnd front back) :
    c.acceptsText (lowercase (front ++ part ++ back)) (lowercase part) = false := by
  rw [Bool.eq_false_iff]
  intro haccepted
  rcases h with ⟨rfl, rfl⟩ | ⟨rfl, rfl⟩
  · exact hkept (lowercase_prefix_iff.mp (List.isPrefixOf_iff_prefix.mp haccepted))
  · rw [List.append_nil] at haccepted
    exact hkept (lowercase_suffix_iff.mp (List.isSuffixOf_iff_suffix.mp haccepted))

theorem LooksBetween.acceptsText_of_opposite (h : c.opposite.LooksBetween front back)
    (actual expected : List Char) :
    c.acceptsText actual expected = !c.opposite.acceptsText actual expected := by
  rw [← acceptsText_opposite h.isOrdering, opposite_opposite]

end Comparison

theorem Predicate.holds_text {predicate : Predicate} {value : String}
    (hoperand : predicate.operand = .text value) {object : Object} {actual : Value}
    (hscope : predicate.category.contains object.category = true)
    (hstored : predicate.stored? object = some actual) :
    predicate.holds object = predicate.comparison.acceptsText (lowercase actual.render.toList)
      (lowercase value.toList) := by
  rw [holds, hscope, hstored, Bool.true_and]
  simp only [accepts, hoperand]

namespace Catalog

variable {catalog : Catalog} {clause : Clause} {predicate : Predicate}

theorem operand_of_resolver (h : catalog.resolver clause = .ok predicate) :
    Operand.ofText? predicate.property.kind clause.value = some predicate.operand := by
  cases answers_iff.mpr h with
  | predicate hcategory hproperty happlies hoperand => exact hoperand

/-- A value that stands in a stored text as it is spelled is found there, at any place where the
comparison looks for it, if its capital sigmas keep their lower case there. They do if it has none or
if it is all of the text. At either end of the text it is found only then. -/
theorem holds_of_spelled (h : catalog.resolver clause = .ok predicate)
    (hkind : predicate.property.kind = .text) {object : Object} {actual : Value}
    (hstored : predicate.stored? object = some actual)
    (hscope : predicate.category.contains object.category = true) {front back : List Char}
    (hspelled : actual.render.toList = front ++ clause.value.toList ++ back) :
    (KeepsSigmas front clause.value.toList back →
      (predicate.comparison.LooksBetween front back → predicate.holds object = true) ∧
      (predicate.comparison.opposite.LooksBetween front back → predicate.holds object = false)) ∧
    ('Σ' ∉ clause.value.toList ∨ front = [] ∧ back = [] →
      KeepsSigmas front clause.value.toList back) ∧
    (¬ KeepsSigmas front clause.value.toList back →
      (predicate.comparison.LooksAtEnd front back → predicate.holds object = false) ∧
      (predicate.comparison.opposite.LooksAtEnd front back → predicate.holds object = true)) := by
  have hoperand := operand_of_resolver h
  rw [hkind] at hoperand
  rw [Predicate.holds_text (Option.some.inj hoperand).symm hscope hstored, hspelled]
  refine ⟨fun hkept => ⟨fun hlooks => hlooks.acceptsText hkept, fun hlooks => ?_⟩, ?_,
    fun hkept => ⟨Comparison.acceptsText_of_not_kept hkept, fun hlooks => ?_⟩⟩
  · rw [hlooks.acceptsText_of_opposite, hlooks.acceptsText hkept]
    rfl
  · rintro (hnone | ⟨rfl, rfl⟩)
    · exact keepsSigmas_of_not_mem hnone front back
    · exact keepsSigmas_alone clause.value.toList
  · rw [hlooks.looksBetween.acceptsText_of_opposite,
      Comparison.acceptsText_of_not_kept hkept hlooks]
    rfl

/-- The sigma that ends the value ends a word in the first text too. In the second one it does not,
and so that text does not start with the value. -/
theorem holds_of_spelled_sigma : ∃ (catalog : Catalog) (predicate : Predicate),
    catalog.resolver ⟨"Part", "NAME", "STARTS_WITH", "ΟΔΟΣ"⟩ = .ok predicate ∧
      predicate.holds ⟨"1", "Part", [("NAME", .text "ΟΔΟΣ 5")]⟩ = true ∧
      predicate.holds ⟨"2", "Part", [("NAME", .text "ΟΔΟΣΑ")]⟩ = false := by
  let name : Property := ⟨"NAME", .text, []⟩
  let part : Category := ⟨"Part", [], false, [name]⟩
  let predicate : Predicate := ⟨part, name, .startsWith, .text "ΟΔΟΣ"⟩
  have hcategory : category? ⟨[part]⟩ "Part" = some part := by decide +kernel
  have hproperty : part.property? "NAME" = some name := by decide +kernel
  have hcomparison : Comparison.ofField "STARTS_WITH" = .startsWith := by decide +kernel
  have hresolved : resolver ⟨[part]⟩ ⟨"Part", "NAME", "STARTS_WITH", "ΟΔΟΣ"⟩ = .ok predicate :=
    resolver_eq_ok hcategory hproperty hcomparison rfl rfl
  have hscope : part.contains "Part" = true := by decide +kernel
  have hstored : ∀ id text, predicate.stored? ⟨id, "Part", [("NAME", .text text)]⟩ =
      some (.text text) := by
    intro id text
    simp [Predicate.stored?, predicate, Property.names, Object.property?, Keyed.get?, name]
  have hkept : KeepsSigmas [] "ΟΔΟΣ".toList " 5".toList :=
    lowercase_prefix_iff.mp (by decide +kernel)
  have hlost : ¬ KeepsSigmas [] "ΟΔΟΣ".toList "Α".toList :=
    mt lowercase_prefix_iff.mpr (by decide +kernel)
  have hspelled : (Value.text "ΟΔΟΣ 5").render.toList = [] ++ "ΟΔΟΣ".toList ++ " 5".toList := by
    decide +kernel
  have hspelled' : (Value.text "ΟΔΟΣΑ").render.toList = [] ++ "ΟΔΟΣ".toList ++ "Α".toList := by
    decide +kernel
  have hlooks : predicate.comparison.LooksBetween [] " 5".toList := rfl
  have hend : predicate.comparison.LooksAtEnd [] "Α".toList := Or.inl ⟨rfl, rfl⟩
  obtain ⟨hfound, -, -⟩ := holds_of_spelled hresolved rfl (hstored "1" "ΟΔΟΣ 5") hscope hspelled
  obtain ⟨-, -, hmissed⟩ := holds_of_spelled hresolved rfl (hstored "2" "ΟΔΟΣΑ") hscope hspelled'
  have hfirst := (hfound hkept).1 hlooks
  have hsecond := (hmissed hlost).1 hend
  exact ⟨⟨[part]⟩, predicate, hresolved, hfirst, hsecond⟩

end Catalog

end ModelQuery
