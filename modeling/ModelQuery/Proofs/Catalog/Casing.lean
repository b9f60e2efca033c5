import ModelQuery.Proofs.Catalog.Composition
import ModelQuery.Proofs.Filter.Casing

/-! Querying without regard to the case of the letters `A` to `Z`. Nothing that a clause is looked
up, read or compared by depends on the case of its letters, so that two filters which differ by it
only select the same objects or are refused alike. -/

namespace ModelQuery

open Text

namespace Number

theorem asciiLower_of_all_isDigit {cs : List Char} (h : cs.all Char.isDigit = true) :
    asciiLower cs = cs := by
  rw [asciiLower]
  conv_rhs => rw [← List.map_id cs]
  refine List.map_congr_left fun c hc => toLower_of_not_isUpper fun hupper => ?_
  obtain ⟨-, hdigit⟩ := Bool.and_eq_true_iff.mp (List.all_eq_true.mp h c hc)
  have hhigh := UInt32.le_iff_toNat_le.mp (of_decide_eq_true hdigit)
  have hlow := UInt32.le_iff_toNat_le.mp (of_decide_eq_true hupper).1
  simp only [Char.toNat_val, Char.reduceVal, UInt32.reduceToNat] at hhigh hlow
  omega

theorem natural?_asciiLower (cs : List Char) : natural? (asciiLower cs) = natural? cs := by
  have hempty : (asciiLower cs).isEmpty = cs.isEmpty := by cases cs <;> rfl
  rw [natural?, caseless_isDigit.all, hempty, natural?]
  by_cases hdigits : cs.all Char.isDigit = true
  · rw [asciiLower_of_all_isDigit hdigits]
  · simp [hdigits]

theorem signed_asciiLower (cs : List Char) :
    signed (asciiLower cs) = ((signed cs).1, asciiLower (signed cs).2) := by
  cases cs with
  | nil => rfl
  | cons c cs =>
    by_cases hminus : c = '-'
    · subst hminus
      rfl
    · by_cases hplus : c = '+'
      · subst hplus
        rfl
      · have hminus' : c.toLower ≠ '-' := mt (toLower_eq_iff (by decide)).mp hminus
        have hplus' : c.toLower ≠ '+' := mt (toLower_eq_iff (by decide)).mp hplus
        simp [signed, hminus, hplus, hminus', hplus']

theorem int?_asciiLower (cs : List Char) : int? (asciiLower cs) = int? cs := by
  simp only [int?, signed_asciiLower, natural?_asciiLower]

theorem int64?_asciiLower (cs : List Char) : int64? (asciiLower cs) = int64? cs := by
  simp only [int64?, int?_asciiLower]

theorem decimal?_asciiLower (cs : List Char) : decimal? (asciiLower cs) = decimal? cs := by
  simp only [decimal?, caseless_isDigit.takeWhile, caseless_isDigit.dropWhile]
  cases cs.dropWhile Char.isDigit with
  | nil => simp [natural?_asciiLower]
  | cons c rest =>
    by_cases hpoint : c = '.'
    · subst hpoint
      simp only [asciiLower_cons, show '.'.toLower = '.' by decide, caseless_isDigit.takeWhile,
        caseless_isDigit.dropWhile, ← asciiLower_append, natural?_asciiLower, length_asciiLower]
      cases rest.dropWhile Char.isDigit with
      | nil => rfl
      | cons e power =>
        simp only [asciiLower_cons, toLower_toLower, int?_asciiLower]
    · have hlow : c.toLower ≠ '.' := mt (toLower_eq_iff (by decide)).mp hpoint
      simp [hpoint, hlow, toLower_toLower, natural?_asciiLower, int?_asciiLower]

theorem float?_asciiLower (cs : List Char) : float? (asciiLower cs) = float? cs := by
  simp only [float?, signed_asciiLower, asciiLower_sameLetters, decimal?_asciiLower]

end Number

theorem truth?_asciiLower (text : List Char) : truth? (asciiLower text) = truth? text := by
  simp only [truth?, trim_asciiLower, asciiLower_asciiLower]

theorem Comparison.ofField_lowered (field : String) : ofField (lowered field) = ofField field := by
  simp only [ofField, ofKeyword?, toList_lowered, trim_asciiLower, sameLetters_asciiLower]

/-- A text to compare with is lowered; what was read as something else is the same. -/
def Operand.lowered : Operand → Operand
  | text s => text (Text.lowered s)
  | number x => number x
  | integer n => integer n
  | boolean b => boolean b

theorem Operand.ofText?_lowered (kind : Kind) (text : String) :
    ofText? kind (Text.lowered text) = (ofText? kind text).map lowered := by
  cases kind with
  | text => rfl
  | number =>
    simp only [ofText?, toList_lowered, trim_asciiLower, Number.float?_asciiLower]
    cases Number.float? (trim text.toList) with
    | none => rfl
    | some x =>
      simp only [Option.bind_some]
      split <;> rfl
  | integer =>
    simp only [ofText?, toList_lowered, trim_asciiLower, Number.int64?_asciiLower, Option.map_map]
    rfl
  | boolean =>
    simp only [ofText?, toList_lowered, truth?_asciiLower, Option.map_map]
    rfl

def Predicate.lowered (predicate : Predicate) : Predicate :=
  { predicate with operand := predicate.operand.lowered }

/-- Texts are compared in lower case, so that a lowered predicate holds for the same objects. -/
theorem Predicate.holds_lowered (predicate : Predicate) (object : Object) :
    predicate.lowered.holds object = predicate.holds object := by
  have haccepts : ∀ actual, predicate.lowered.accepts actual = predicate.accepts actual := by
    intro actual
    obtain ⟨category, property, comparison, operand⟩ := predicate
    cases operand with
    | text s => simp only [accepts, lowered, Operand.lowered, toList_lowered, lowercase_asciiLower]
    | number | integer | boolean => rfl
  simp only [holds, haccepts]
  rfl

theorem sameName_trimmed_lowered (known name : String) :
    sameName known (trimmed (lowered name)) = sameName known (trimmed name) := by
  simp only [sameName, trimmed, toList_lowered, String.toList_ofList, trim_asciiLower,
    sameLetters_asciiLower]

theorem Suggestion.nearest?_lowered (asked : String) (known : List String) :
    nearest? (lowered asked) known = nearest? asked known := by
  have hdistance : distance (lowered asked) = distance asked := by
    funext name
    rw [distance, toList_lowered, lowercase_asciiLower, distance]
  rw [nearest?, hdistance, nearest?]

theorem Category.property?_lowered (category : Category) (name : String) :
    category.property? (lowered name) = category.property? name := by
  simp only [property?, Property.isNamed, sameName_trimmed_lowered]

namespace Catalog

theorem category?_lowered (catalog : Catalog) (name : String) :
    catalog.category? (lowered name) = catalog.category? name := by
  simp only [category?, Category.isNamed, sameName_trimmed_lowered]

/-- Looking up lowered fields finds what the fields find. -/
theorem resolver_lowered (catalog : Catalog) (clause : Clause) :
    catalog.resolver clause.lowered =
      bimap Mismatch.lowered Predicate.lowered (catalog.resolver clause) := by
  simp only [resolver, Clause.lowered, category?_lowered, Suggestion.nearest?_lowered]
  cases catalog.category? clause.category with
  | none => rfl
  | some category =>
    simp only [Category.property?_lowered]
    cases category.property? clause.property with
    | none => rfl
    | some property =>
      simp only [Comparison.ofField_lowered, Operand.ofText?_lowered]
      split
      · cases Operand.ofText? property.kind clause.value <;> rfl
      · rfl

end Catalog

theorem Model.selectFilter_asciiLower (model : Model) (catalog : Catalog) (filter : List Char) :
    model.selectFilter catalog (asciiLower filter) =
      bimap Fault.lowered id (model.selectFilter catalog filter) := by
  have hselect : ∀ plan : Plan Predicate,
      model.select (plan.map Predicate.lowered) = model.select plan := by
    intro plan
    have haccepts : (plan.map Predicate.lowered).accepts = plan.accepts := by
      funext object
      simp only [Plan.accepts, Plan.holds_map, Predicate.holds_lowered]
    rw [select, haccepts, select]
  rw [selectFilter, compile_asciiLower catalog.resolver_lowered]
  refine bind_bimap (fun plan => ?_) _
  rw [hselect]
  rfl

/-- Two mismatches of one kind that are about the same known names and suggest the same one. What
they quote of a clause may differ by the case of letters. -/
inductive Mismatch.Akin : Mismatch → Mismatch → Prop
  | unknownCategory {a b : String} (suggestion : Option String) (h : Text.lowered a = Text.lowered b) :
    Akin (.unknownCategory a suggestion) (.unknownCategory b suggestion)
  | unknownProperty {a b : String} (category : String) (suggestion : Option String)
    (h : Text.lowered a = Text.lowered b) :
    Akin (.unknownProperty category a suggestion) (.unknownProperty category b suggestion)
  | invalidValue {a b : String} (property expected : String)
    (h : Text.lowered a = Text.lowered b) :
    Akin (.invalidValue property a expected) (.invalidValue property b expected)
  | unsupportedComparison (property operator : String) :
    Akin (.unsupportedComparison property operator) (.unsupportedComparison property operator)

/-- Two faults of one kind at the same position, with the same counts and for akin causes. What they
quote of a filter may differ by the case of letters. -/
inductive Fault.Akin : Fault → Fault → Prop
  | blank : Akin .blank .blank
  | unclosed (missing : Nat) : Akin (.unclosed missing) (.unclosed missing)
  | unopened (position : Nat) : Akin (.unopened position) (.unopened position)
  | blankClauses (position : Nat) : Akin (.blankClauses position) (.blankClauses position)
  | unexpected {a b : Token} (position : Nat) (h : a.lowered = b.lowered) :
    Akin (.unexpected a position) (.unexpected b position)
  | shortClause {a b : String} (position fields : Nat) (h : Text.lowered a = Text.lowered b) :
    Akin (.shortClause a position fields) (.shortClause b position fields)
  | trailing {a b : Token} (position : Nat) (h : a.lowered = b.lowered) :
    Akin (.trailing a position) (.trailing b position)
  | emptyGroup : Akin .emptyGroup .emptyGroup
  | joinerCount (children joiners : Nat) :
    Akin (.joinerCount children joiners) (.joinerCount children joiners)
  | unresolved {a b : Clause} {cause cause' : Mismatch} (h : a.lowered = b.lowered)
    (hcause : cause.Akin cause') : Akin (.unresolved a cause) (.unresolved b cause')

theorem Mismatch.akin_of_lowered_eq {a b : Mismatch} (h : a.lowered = b.lowered) : a.Akin b := by
  cases a <;> cases b <;> simp only [lowered, reduceCtorEq] at h
  case unknownCategory.unknownCategory =>
    injection h with htext hsuggestion
    exact hsuggestion ▸ .unknownCategory _ htext
  case unknownProperty.unknownProperty =>
    injection h with hcategory htext hsuggestion
    exact hcategory ▸ hsuggestion ▸ .unknownProperty _ _ htext
  case invalidValue.invalidValue =>
    injection h with hproperty htext hexpected
    exact hproperty ▸ hexpected ▸ .invalidValue _ _ htext
  case unsupportedComparison.unsupportedComparison =>
    injection h with hproperty hoperator
    exact hproperty ▸ hoperator ▸ .unsupportedComparison _ _

theorem Fault.akin_of_lowered_eq {a b : Fault} (h : a.lowered = b.lowered) : a.Akin b := by
  cases a <;> cases b <;> simp only [lowered, reduceCtorEq] at h
  case blank.blank => exact .blank
  case emptyGroup.emptyGroup => exact .emptyGroup
  case unclosed.unclosed => exact h ▸ .unclosed _
  case unopened.unopened => exact h ▸ .unopened _
  case blankClauses.blankClauses => exact h ▸ .blankClauses _
  case unexpected.unexpected =>
    injection h with htoken hposition
    exact hposition ▸ .unexpected _ htoken
  case shortClause.shortClause =>
    injection h with htext hposition hfields
    exact hposition ▸ hfields ▸ .shortClause _ _ htext
  case trailing.trailing =>
    injection h with htoken hposition
    exact hposition ▸ .trailing _ htoken
  case joinerCount.joinerCount =>
    injection h with hchildren hjoiners
    exact hchildren ▸ hjoiners ▸ .joinerCount _ _
  case unresolved.unresolved =>
    injection h with hclause hcause
    exact .unresolved hclause (Mismatch.akin_of_lowered_eq hcause)

namespace Model

/-- Filters that differ only by the case of letters select the same objects or have akin faults. -/
theorem selectFilter_akin (model : Model) (catalog : Catalog) {a b : List Char}
    (h : sameLetters a b = true) :
    (∃ ids, model.selectFilter catalog a = .ok ids ∧ model.selectFilter catalog b = .ok ids) ∨
      ∃ fault fault', model.selectFilter catalog a = .error fault ∧
        model.selectFilter catalog b = .error fault' ∧ fault.Akin fault' := by
  have hlow : bimap Fault.lowered id (model.selectFilter catalog a) =
      bimap Fault.lowered id (model.selectFilter catalog b) := by
    rw [← selectFilter_asciiLower, ← selectFilter_asciiLower, sameLetters_iff.mp h]
  cases ha : model.selectFilter catalog a with
  | ok ids =>
    cases hb : model.selectFilter catalog b with
    | ok ids' =>
      rw [ha, hb] at hlow
      injection hlow with hids
      exact Or.inl ⟨ids, rfl, congrArg Except.ok hids.symm⟩
    | error fault' => simp [ha, hb, bimap] at hlow
  | error fault =>
    cases hb : model.selectFilter catalog b with
    | ok ids' => simp [ha, hb, bimap] at hlow
    | error fault' =>
      rw [ha, hb] at hlow
      injection hlow with hfault
      exact Or.inr ⟨fault, fault', rfl, rfl, Fault.akin_of_lowered_eq hfault⟩

/-- Which sigma ends a word is told by the letters around it, in either case. A name that is not
known has the same suggestion in either case. -/
theorem selectFilter_akin_sigma : ∃ (model : Model) (catalog : Catalog),
    model.selectFilter catalog "PART|name|starts_WITH|ΟΔΟΣ a|or;Part|NAME||b".toList =
        .ok ["1"] ∧
      model.selectFilter catalog "part|NAME|STARTS_with|ΟΔΟΣ A|OR;parT|Name||B".toList =
        .ok ["1"] ∧
      ∃ fault fault', model.selectFilter catalog "(part|nmae||x)".toList = .error fault ∧
        model.selectFilter catalog "(Part|NMAE||X)".toList = .error fault' ∧
        fault.Akin fault' ∧
        fault = .unresolved ⟨"part", "nmae", "", "x"⟩
          (.unknownProperty "Part" "nmae" (some "NAME")) := by
  let catalog : Catalog := ⟨[⟨"Part", [], true, [⟨"NAME", .text, []⟩]⟩]⟩
  let model : Model := ⟨none, [⟨"1", "Part", [("NAME", .text "οδος A1")]⟩,
    ⟨"2", "Part", [("NAME", .text "ΟΔΟΣA")]⟩]⟩
  have hselected : model.selectFilter catalog "PART|name|starts_WITH|ΟΔΟΣ a|or;Part|NAME||b".toList =
      .ok ["1"] := by decide +kernel
  have hrefused : model.selectFilter catalog "(part|nmae||x)".toList =
      .error (.unresolved ⟨"part", "nmae", "", "x"⟩
        (.unknownProperty "Part" "nmae" (some "NAME"))) := by decide +kernel
  have hsame : sameLetters "PART|name|starts_WITH|ΟΔΟΣ a|or;Part|NAME||b".toList
      "part|NAME|STARTS_with|ΟΔΟΣ A|OR;parT|Name||B".toList = true := by decide +kernel
  have hsame' : sameLetters "(part|nmae||x)".toList "(Part|NMAE||X)".toList = true := by
    decide +kernel
  refine ⟨model, catalog, hselected, ?_, ?_⟩
  · rcases selectFilter_akin model catalog hsame with ⟨ids, ha, hb⟩ | ⟨fault, fault', ha, -, -⟩
    · rw [hb, ← ha, hselected]
    · rw [hselected] at ha
      cases ha
  · rcases selectFilter_akin model catalog hsame' with ⟨ids, ha, -⟩ | ⟨fault, fault', ha, hb, hakin⟩
    · rw [hrefused] at ha
      cases ha
    · rw [hrefused] at ha
      exact ⟨fault, fault', hrefused.trans ha, hb, hakin, (Except.error.inj ha).symm⟩

end Model

end ModelQuery
