import ModelQuery.Catalog.Resolve
import Mathlib.Data.Option.NAry

/-! What the comparisons of one property with one value say of one object. They all look at the same
contrast of a stored value with an operand. Where there is none they all reject, and where there is
one each comparison is the denial of its opposite. -/

namespace ModelQuery

namespace Comparison

/-- The comparison that denies this one. -/
def opposite : Comparison → Comparison
  | isEqual => isNotEqual
  | isNotEqual => isEqual
  | contains => notContains
  | notContains => contains
  | startsWith => notStartsWith
  | notStartsWith => startsWith
  | endsWith => notEndsWith
  | notEndsWith => endsWith
  | greaterThan => smallerOrEqual
  | greaterOrEqual => smallerThan
  | smallerThan => greaterOrEqual
  | smallerOrEqual => greaterThan

theorem ofField_word (c : Comparison) : ofField c.word = c := by
  cases c <;> decide +kernel

theorem appliesTo_opposite (c : Comparison) (kind : Kind) :
    c.opposite.appliesTo kind = c.appliesTo kind := by
  cases c <;> rfl

theorem isTextual_of_appliesTo {c : Comparison} {kind : Kind} (h : c.appliesTo kind = true)
    (hk : kind ≠ .text) : c.isTextual = false := by
  cases c <;> first | rfl | exact absurd (of_decide_eq_true h) hk

theorem isOrdering_of_appliesTo {c : Comparison} {kind : Kind} (h : c.appliesTo kind = true)
    (hk : kind.isNumeric = false) : c.isOrdering = false := by
  cases c <;> first | rfl | exact absurd (hk.symm.trans h) Bool.false_ne_true

theorem acceptsText_opposite {c : Comparison} (h : c.isOrdering = false)
    (actual expected : List Char) :
    c.opposite.acceptsText actual expected = !c.acceptsText actual expected := by
  cases c with
  | greaterThan | greaterOrEqual | smallerThan | smallerOrEqual => cases h
  | _ => simp [acceptsText, opposite, bne]

theorem acceptsOrder_opposite {c : Comparison} (h : c.isTextual = false) (order : Ordering) :
    c.opposite.acceptsOrder order = !c.acceptsOrder order := by
  cases c with
  | isEqual | isNotEqual | greaterThan | greaterOrEqual | smallerThan | smallerOrEqual =>
    cases order <;> rfl
  | _ => cases h

theorem acceptsTruth_opposite {c : Comparison} (ht : c.isTextual = false)
    (ho : c.isOrdering = false) (actual expected : Bool) :
    c.opposite.acceptsTruth actual expected = !c.acceptsTruth actual expected := by
  cases c with
  | isEqual | isNotEqual => simp [acceptsTruth, opposite, bne]
  | greaterThan | greaterOrEqual | smallerThan | smallerOrEqual => cases ho
  | _ => cases ht

/-- The verdicts of all comparisons on one object fit together. A comparison that cannot be asked
for has no verdict. -/
structure Partition (verdict? : Comparison → Option Bool) : Prop where
  /-- Unless all of them reject, of two opposites one accepts, and they are asked for alike. -/
  opposites : (∀ c, verdict? c ≠ some true) ∨
    ∀ c, verdict? c.opposite = (verdict? c).map not
  asked_alike : ∀ c, (verdict? c.opposite).isSome = (verdict? c).isSome
  greaterOrEqual : verdict? .greaterOrEqual =
    Option.map₂ or (verdict? .greaterThan) (verdict? .isEqual)
  smallerOrEqual : verdict? .smallerOrEqual =
    Option.map₂ or (verdict? .smallerThan) (verdict? .isEqual)
  startsWith_of_isEqual : verdict? .isEqual = some true → (verdict? .startsWith).isSome →
    verdict? .startsWith = some true
  endsWith_of_isEqual : verdict? .isEqual = some true → (verdict? .endsWith).isSome →
    verdict? .endsWith = some true
  contains_of_startsWith : verdict? .startsWith = some true → verdict? .contains = some true
  contains_of_endsWith : verdict? .endsWith = some true → verdict? .contains = some true

end Comparison

/-- What a comparison is decided by, for a property of this kind. -/
inductive Contrast : Kind → Type
  | texts (actual expected : List Char) : Contrast .text
  | numbers {kind : Kind} (h : kind.isNumeric = true) (order : Ordering) : Contrast kind
  | truths (actual expected : Bool) : Contrast .boolean

namespace Contrast

def accepts {kind : Kind} (comparison : Comparison) : Contrast kind → Bool
  | texts actual expected => comparison.acceptsText actual expected
  | numbers _ order => comparison.acceptsOrder order
  | truths actual expected => comparison.acceptsTruth actual expected

variable {kind : Kind}

theorem accepts_opposite {c : Comparison} (h : c.appliesTo kind = true) (contrast : Contrast kind) :
    contrast.accepts c.opposite = !contrast.accepts c := by
  cases contrast with
  | texts actual expected =>
    have ho := Comparison.isOrdering_of_appliesTo h rfl
    exact Comparison.acceptsText_opposite ho actual expected
  | numbers hk order =>
    have hkind : kind ≠ .text := by
      rintro rfl
      cases hk
    exact Comparison.acceptsOrder_opposite (Comparison.isTextual_of_appliesTo h hkind) order
  | truths actual expected =>
    have ht := Comparison.isTextual_of_appliesTo h (by decide)
    have ho := Comparison.isOrdering_of_appliesTo h rfl
    exact Comparison.acceptsTruth_opposite ht ho actual expected

theorem accepts_greaterOrEqual (hk : kind.isNumeric = true) (contrast : Contrast kind) :
    contrast.accepts .greaterOrEqual =
      (contrast.accepts .greaterThan || contrast.accepts .isEqual) := by
  cases contrast with
  | texts | truths => cases hk
  | numbers _ order => cases order <;> rfl

theorem accepts_smallerOrEqual (hk : kind.isNumeric = true) (contrast : Contrast kind) :
    contrast.accepts .smallerOrEqual =
      (contrast.accepts .smallerThan || contrast.accepts .isEqual) := by
  cases contrast with
  | texts | truths => cases hk
  | numbers _ order => cases order <;> rfl

theorem accepts_startsWith {contrast : Contrast .text} (h : contrast.accepts .isEqual = true) :
    contrast.accepts .startsWith = true := by
  cases contrast with
  | numbers hk => cases hk
  | texts actual expected =>
    obtain rfl : actual = expected := eq_of_beq h
    exact List.isPrefixOf_iff_prefix.mpr List.prefix_rfl

theorem accepts_endsWith {contrast : Contrast .text} (h : contrast.accepts .isEqual = true) :
    contrast.accepts .endsWith = true := by
  cases contrast with
  | numbers hk => cases hk
  | texts actual expected =>
    obtain rfl : actual = expected := eq_of_beq h
    exact List.isSuffixOf_iff_suffix.mpr List.suffix_rfl

theorem accepts_contains {contrast : Contrast .text}
    (h : contrast.accepts .startsWith = true ∨ contrast.accepts .endsWith = true) :
    contrast.accepts .contains = true := by
  cases contrast with
  | numbers hk => cases hk
  | texts actual expected =>
    refine (Text.isWithin_iff expected actual).mpr ?_
    rcases h with hprefix | hsuffix
    · exact (List.isPrefixOf_iff_prefix.mp hprefix).isInfix
    · exact (List.isSuffixOf_iff_suffix.mp hsuffix).isInfix

/-- The verdict of a comparison, if it can be asked for. Without a contrast it is a rejection. -/
def verdict? (contrast : Option (Contrast kind)) (c : Comparison) : Option Bool :=
  if c.appliesTo kind then some (contrast.any (accepts c)) else none

theorem isSome_verdict? (contrast : Option (Contrast kind)) (c : Comparison) :
    (verdict? contrast c).isSome = c.appliesTo kind := by
  cases h : c.appliesTo kind <;> simp [verdict?, h]

theorem verdict?_eq_some_true_iff {contrast : Option (Contrast kind)} {c : Comparison} :
    verdict? contrast c = some true ↔
      c.appliesTo kind = true ∧ ∃ seen, contrast = some seen ∧ seen.accepts c = true := by
  cases h : c.appliesTo kind <;> simp [verdict?, h, Option.any_eq_true]

theorem verdict?_join {whole part : Comparison} (hwhole : whole.appliesTo kind = kind.isNumeric)
    (hpart : part.appliesTo kind = kind.isNumeric)
    (hjoin : kind.isNumeric = true → ∀ seen : Contrast kind,
      seen.accepts whole = (seen.accepts part || seen.accepts .isEqual))
    (contrast : Option (Contrast kind)) :
    verdict? contrast whole = Option.map₂ or (verdict? contrast part) (verdict? contrast .isEqual) := by
  rw [verdict?, verdict?, hwhole, hpart]
  cases hk : kind.isNumeric with
  | false => rfl
  | true =>
    cases contrast with
    | none => rfl
    | some seen => exact congrArg some (hjoin hk seen)

theorem verdict?_of_texts {given asked : Comparison}
    (himp : ∀ seen : Contrast .text, seen.accepts given = true → seen.accepts asked = true)
    (hkind : kind = .text) (hasked : asked.appliesTo kind = true)
    {contrast : Option (Contrast kind)} (h : verdict? contrast given = some true) :
    verdict? contrast asked = some true := by
  subst hkind
  obtain ⟨-, seen, hseen, hgiven⟩ := verdict?_eq_some_true_iff.mp h
  exact verdict?_eq_some_true_iff.mpr ⟨hasked, seen, hseen, himp seen hgiven⟩

theorem partition_verdict? (contrast : Option (Contrast kind)) :
    Comparison.Partition (verdict? contrast) where
  opposites := by
    cases contrast with
    | none =>
      refine Or.inl fun c h => ?_
      obtain ⟨-, seen, hseen, -⟩ := verdict?_eq_some_true_iff.mp h
      cases hseen
    | some seen =>
      refine Or.inr fun c => ?_
      rw [verdict?, Comparison.appliesTo_opposite, verdict?]
      split
      · next h => exact congrArg some (seen.accepts_opposite h)
      · rfl
  asked_alike c := by
    rw [isSome_verdict?, Comparison.appliesTo_opposite, isSome_verdict?]
  greaterOrEqual := verdict?_join rfl rfl accepts_greaterOrEqual contrast
  smallerOrEqual := verdict?_join rfl rfl accepts_smallerOrEqual contrast
  startsWith_of_isEqual h hs := by
    have hasked := isSome_verdict? contrast .startsWith ▸ hs
    exact verdict?_of_texts (fun _ => accepts_startsWith) (of_decide_eq_true hasked) hasked h
  endsWith_of_isEqual h hs := by
    have hasked := isSome_verdict? contrast .endsWith ▸ hs
    exact verdict?_of_texts (fun _ => accepts_endsWith) (of_decide_eq_true hasked) hasked h
  contains_of_startsWith h := by
    have hgiven := (verdict?_eq_some_true_iff.mp h).1
    exact verdict?_of_texts (fun _ hs => accepts_contains (Or.inl hs)) (of_decide_eq_true hgiven)
      hgiven h
  contains_of_endsWith h := by
    have hgiven := (verdict?_eq_some_true_iff.mp h).1
    exact verdict?_of_texts (fun _ hs => accepts_contains (Or.inr hs)) (of_decide_eq_true hgiven)
      hgiven h

end Contrast

theorem Comparison.partition_none : Partition fun _ => none where
  opposites := Or.inr fun _ => rfl
  asked_alike _ := rfl
  greaterOrEqual := rfl
  smallerOrEqual := rfl
  startsWith_of_isEqual h := nomatch h
  endsWith_of_isEqual h := nomatch h
  contains_of_startsWith h := nomatch h
  contains_of_endsWith h := nomatch h

namespace Operand

def kind : Operand → Kind
  | text _ => .text
  | number _ => .number
  | integer _ => .integer
  | boolean _ => .boolean

theorem kind_of_ofText? {asked : Kind} {text : String} {operand : Operand}
    (h : ofText? asked text = some operand) : operand.kind = asked := by
  cases asked with
  | text =>
    obtain rfl := Option.some.inj h
    rfl
  | number =>
    obtain ⟨x, -, hx⟩ := Option.bind_eq_some_iff.mp h
    split at hx
    · obtain rfl := Option.some.inj hx
      rfl
    · cases hx
  | integer | boolean =>
    obtain ⟨_, -, rfl⟩ := Option.map_eq_some_iff.mp h
    rfl

/-- A stored value in contrast with an operand. There is none if the value cannot be read as the
kind of the operand, or if one of two doubles is no number. -/
def contrast? (actual : Value) : (operand : Operand) → Option (Contrast operand.kind)
  | text expected =>
    some (.texts (Text.lowercase actual.render.toList) (Text.lowercase expected.toList))
  | number expected => (actual.float?.bind (orderWithin · expected)).map (.numbers rfl)
  | integer expected =>
    actual.int64?.map fun n => .numbers rfl (compare n.toInt expected.toInt)
  | boolean expected => actual.truth?.map (.truths · expected)

end Operand

namespace Predicate

theorem accepts_eq (predicate : Predicate) (actual : Value) :
    predicate.accepts actual =
      (predicate.operand.contrast? actual).any (Contrast.accepts predicate.comparison) := by
  obtain ⟨category, property, comparison, operand⟩ := predicate
  cases operand with
  | text expected => rfl
  | number expected =>
    simp only [accepts, Operand.contrast?]
    cases actual.float?.bind (orderWithin · expected) <;> rfl
  | integer expected =>
    simp only [accepts, Operand.contrast?]
    cases actual.int64? <;> rfl
  | boolean expected =>
    simp only [accepts, Operand.contrast?]
    cases actual.truth? <;> rfl

/-- The value that an object stores, in contrast with the operand. Only objects of the category
have one. -/
def contrast? (predicate : Predicate) (object : Object) :
    Option (Contrast predicate.operand.kind) :=
  if predicate.category.contains object.category then
    (predicate.stored? object).bind (Operand.contrast? · predicate.operand)
  else none

theorem holds_eq (predicate : Predicate) (object : Object) :
    predicate.holds object =
      (predicate.contrast? object).any (Contrast.accepts predicate.comparison) := by
  rw [holds, contrast?]
  cases predicate.category.contains object.category with
  | false => rfl
  | true =>
    cases predicate.stored? object with
    | none => rfl
    | some actual => exact predicate.accepts_eq actual

end Predicate

namespace Catalog

/-- Whether an object passes the predicate of a clause, if the catalog has one for it. -/
def verdict? (catalog : Catalog) (category property value : String) (object : Object)
    (operator : String) : Option Bool :=
  (catalog.resolver ⟨category, property, operator, value⟩).toOption.map (·.holds object)

variable (catalog : Catalog) (category property value : String) (object : Object)

/-- Either the other fields have no meaning with any operator, or one contrast decides them all. -/
theorem exists_contrast :
    (∀ operator, catalog.verdict? category property value object operator = none) ∨
      ∃ (kind : Kind) (contrast : Option (Contrast kind)), ∀ operator,
        catalog.verdict? category property value object operator =
          Contrast.verdict? contrast (Comparison.ofField operator) := by
  simp only [verdict?, resolver]
  cases catalog.category? category with
  | none => exact Or.inl fun _ => rfl
  | some found =>
    cases hproperty : found.property? property with
    | none => exact Or.inl fun _ => by simp [hproperty, Except.toOption]
    | some asked =>
      cases hoperand : Operand.ofText? asked.kind value with
      | none =>
        refine Or.inl fun operator => ?_
        simp only [hproperty, hoperand]
        split <;> rfl
      | some operand =>
        refine Or.inr ⟨operand.kind, Predicate.contrast? ⟨found, asked, .isEqual, operand⟩ object,
          fun operator => ?_⟩
        simp only [hproperty, hoperand, Contrast.verdict?, Operand.kind_of_ofText? hoperand]
        split
        · exact congrArg some (Predicate.holds_eq _ object)
        · rfl

/-- The operators that are asked for with the same other fields partition the objects: an object
that one of them accepts is accepted by exactly one of any two opposites. What an operator says
depends on its comparison only. -/
theorem operators_partition :
    (∀ operator, catalog.verdict? category property value object operator =
      catalog.verdict? category property value object (Comparison.ofField operator).word) ∧
    Comparison.Partition fun c => catalog.verdict? category property value object c.word := by
  rcases catalog.exists_contrast category property value object with hnone | ⟨kind, contrast, heq⟩
  · exact ⟨fun operator => by rw [hnone, hnone], by simpa only [hnone] using Comparison.partition_none⟩
  · refine ⟨fun operator => by rw [heq, heq, Comparison.ofField_word], ?_⟩
    simpa only [heq, Comparison.ofField_word] using Contrast.partition_verdict? contrast

example :
    let catalog : Catalog := ⟨[⟨"Part", [], true, [⟨"NAME", .text, []⟩]⟩]⟩
    let object : Object := ⟨"1", "Part", [("NAME", .text "HEA")]⟩
    Comparison.all.filter (fun c => catalog.verdict? "part" "name" "He" object c.word == some true) =
      [.isNotEqual, .contains, .startsWith, .notEndsWith] := by
  decide +kernel

end Catalog

end ModelQuery
