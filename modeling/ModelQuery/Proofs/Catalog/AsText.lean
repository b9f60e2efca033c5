import ModelQuery.Proofs.Catalog.Partition
import ModelQuery.Proofs.Catalog.Spelled
import ModelQuery.Proofs.Number.Digits
import ModelQuery.Proofs.Text.Trimming

/-! Values that are stored as the texts they are written as. A whole number or a truth value is read
out of its text as it was read before, so that it does not matter to a comparison which of the two
an object stores. Only doubles are compared by what a text rounds to. -/

namespace ModelQuery

open Text

namespace Number

variable {n : Int}

theorem trim_toString (n : Int) : trim (toString n).toList = (toString n).toList := by
  have hblank : ∀ c ∈ (toString n).toList, isBlank c = false := by
    intro c hc
    rcases mem_toString hc with rfl | hdigit
    · decide
    · simpa using forall_isDigit (fun c => !isBlank c) (by decide) hdigit
  exact trim_eq_self (fun c hc => hblank c (List.mem_of_mem_head? hc))
    (fun c hc => hblank c (List.mem_of_mem_getLast? hc))

theorem asciiLower_toString (n : Int) : asciiLower (toString n).toList = (toString n).toList := by
  have hlow : ∀ c ∈ (toString n).toList, c.toLower = c := by
    intro c hc
    rcases mem_toString hc with rfl | hdigit
    · decide
    · simpa using forall_isDigit (fun c => c.toLower == c) (by decide) hdigit
  rw [asciiLower, List.map_congr_left hlow, List.map_id']

end Number

/-- Of the numbers only 0 and 1 are written as a truth value. -/
theorem truth?_toString (n : Int64) :
    truth? (toString n.toInt).toList = Value.truth? (.integer n) := by
  have hzero : (toString n.toInt).toList = "0".toList ↔ n = 0 :=
    Number.toString_toInt_inj (n := 0)
  have hone : (toString n.toInt).toList = "1".toList ↔ n = 1 :=
    Number.toString_toInt_inj (n := 1)
  have hletter := @Number.toString_ne_of_letter n.toInt
  have htrue : (toString n.toInt).toList ≠ "true".toList := hletter ⟨'t', by decide⟩
  have hyes : (toString n.toInt).toList ≠ "yes".toList := hletter ⟨'y', by decide⟩
  have hfalse : (toString n.toInt).toList ≠ "false".toList := hletter ⟨'f', by decide⟩
  have hno : (toString n.toInt).toList ≠ "no".toList := hletter ⟨'n', by decide⟩
  simp only [truth?, Number.trim_toString, Number.asciiLower_toString, htrue, hyes, hfalse, hno,
    hzero, hone, false_or, Value.truth?]
  by_cases h : n = 0
  · subst h
    rfl
  · rw [if_neg h, if_neg h]

namespace Value

/-- The text of a whole number or a truth value in its place. -/
def asText : Value → Value
  | boolean b => text (boolean b).render
  | integer n => text (integer n).render
  | value => value

theorem render_asText (value : Value) : value.asText.render = value.render := by
  cases value <;> rfl

theorem int64?_asText (value : Value) : value.asText.int64? = value.int64? := by
  cases value with
  | boolean b => cases b <;> decide
  | integer n =>
    show Number.int64? (trim (toString n.toInt).toList) = some n
    rw [Number.trim_toString, Number.int64?_toString]
  | number | text => rfl

theorem truth?_asText (value : Value) : value.asText.truth? = value.truth? := by
  cases value with
  | boolean b => cases b <;> decide
  | integer n => exact truth?_toString n
  | number | text => rfl

end Value

theorem Operand.contrast?_asText {operand : Operand} (h : operand.kind ≠ .number)
    (actual : Value) : operand.contrast? actual.asText = operand.contrast? actual := by
  cases operand with
  | text expected => rw [contrast?, Value.render_asText, contrast?]
  | number expected => exact absurd rfl h
  | integer expected => rw [contrast?, Value.int64?_asText, contrast?]
  | boolean expected => rw [contrast?, Value.truth?_asText, contrast?]

theorem Keyed.get?_map {α : Type} (f : String → α → α) (key : String) (table : Keyed α) :
    get? key (table.map fun entry => (entry.1, f entry.1 entry.2)) =
      (get? key table).map (f key) := by
  induction table with
  | nil => rfl
  | cons entry rest ih =>
    obtain ⟨k, value⟩ := entry
    by_cases h : k = key
    · subst h
      simp [get?]
    · simpa [get?, h] using ih

namespace Object

/-- An object that stores the chosen ones of its properties as texts. -/
def asTexts (chosen : String → Bool) (object : Object) : Object :=
  { object with
    properties := object.properties.map fun entry =>
      (entry.1, if chosen entry.1 then entry.2.asText else entry.2) }

variable {α : Type} (read : Value → α)

/-- Whoever cannot tell a value from its text sees the same under each name. -/
theorem map_property?_asTexts (hread : ∀ value : Value, read value.asText = read value)
    (chosen : String → Bool) (object : Object) (name : String) :
    ((object.asTexts chosen).property? name).map read = (object.property? name).map read := by
  have hentry : ∀ key value, read (if chosen key then Value.asText value else value) = read value := by
    intro key value
    split
    · exact hread value
    · rfl
  have hget := Keyed.get?_map (fun key value => if chosen key then value.asText else value) name
    object.properties
  simp only [property?, asTexts, hget]
  cases object.properties.get? name with
  | some value => exact congrArg some (hentry name value)
  | none =>
    simp only [Option.map_none, List.find?_map, Option.map_map]
    exact Option.map_congr fun entry _ => hentry entry.1 entry.2

theorem map_findSome?_asTexts (hread : ∀ value : Value, read value.asText = read value)
    (chosen : String → Bool) (object : Object) (names : List String) :
    (names.findSome? (object.asTexts chosen).property?).map read =
      (names.findSome? object.property?).map read := by
  induction names with
  | nil => rfl
  | cons name names ih =>
    have hname := map_property?_asTexts read hread chosen object name
    rw [List.findSome?_cons, List.findSome?_cons]
    cases hold : object.property? name <;> cases hnew : (object.asTexts chosen).property? name <;>
      simp_all

end Object

namespace Predicate

variable (predicate : Predicate)

theorem contrast?_asTexts (h : predicate.operand.kind ≠ .number) (chosen : String → Bool)
    (object : Object) :
    predicate.contrast? (object.asTexts chosen) = predicate.contrast? object := by
  have hstored := Object.map_findSome?_asTexts (Operand.contrast? · predicate.operand)
    (Operand.contrast?_asText h) chosen object predicate.property.names
  have hbind := congrArg (Option.bind · id) hstored
  simp only [Option.bind_map, Function.id_comp] at hbind
  rw [contrast?, contrast?, stored?, stored?, hbind]
  rfl

theorem holds_eq_of_asTexts (h : predicate.operand.kind ≠ .number) (chosen : String → Bool)
    (object : Object) : predicate.holds (object.asTexts chosen) = predicate.holds object := by
  rw [holds_eq, holds_eq, contrast?_asTexts predicate h]

end Predicate

namespace Catalog

variable {catalog : Catalog} {clause : Clause} {predicate : Predicate}

/-- Unless a property is a number, no comparison tells the objects that store their whole numbers
and truth values as such from those that store some of them as texts. -/
theorem holds_asTexts (h : catalog.resolver clause = .ok predicate)
    (hkind : predicate.property.kind ≠ .number) (comparison : Comparison) (object : Object)
    (chosen : String → Bool) :
    { predicate with comparison }.holds (object.asTexts chosen) =
      { predicate with comparison }.holds object := by
  have hoperand : predicate.operand.kind ≠ .number := by
    rwa [Operand.kind_of_ofText? (operand_of_resolver h)]
  exact Predicate.holds_eq_of_asTexts { predicate with comparison } hoperand chosen object

/-- The least whole number keeps its sign on the way through its text, and the property is found
under an alias in another case. -/
theorem holds_asTexts_least :
    let phase : Property := ⟨"PHASE", .integer, ["STEP"]⟩
    let part : Category := ⟨"Part", [], false, [phase]⟩
    let predicate : Predicate := ⟨part, phase, .smallerOrEqual, .integer Int64.minValue⟩
    let object : Object := ⟨"1", "Part", [("step", .integer Int64.minValue)]⟩
    resolver ⟨[part]⟩ ⟨"Part", "PHASE", "SMALLER_OR_EQUAL", "-9223372036854775808"⟩ =
        .ok predicate ∧ phase.kind ≠ .number ∧
      object.asTexts (· = "step") = ⟨"1", "Part", [("step", .text "-9223372036854775808")]⟩ ∧
      predicate.holds (object.asTexts (· = "step")) = true := by
  intro phase part predicate object
  have hcategory : category? ⟨[part]⟩ "Part" = some part := by decide +kernel
  have hproperty : part.property? "PHASE" = some phase := by decide +kernel
  have hcomparison : Comparison.ofField "SMALLER_OR_EQUAL" = .smallerOrEqual := by decide +kernel
  have hoperand : Operand.ofText? .integer "-9223372036854775808" =
      some (.integer Int64.minValue) :=
    congrArg (Option.map Operand.integer) (Number.int64?_toString Int64.minValue)
  have hresolved : resolver ⟨[part]⟩ ⟨"Part", "PHASE", "SMALLER_OR_EQUAL", "-9223372036854775808"⟩ =
      .ok predicate := resolver_eq_ok hcategory hproperty hcomparison rfl hoperand
  have hholds : predicate.holds object = true := by decide +kernel
  have hsame := holds_asTexts hresolved (by decide) .smallerOrEqual object (· = "step")
  exact ⟨hresolved, by decide, rfl, hsame.trans hholds⟩

end Catalog

end ModelQuery
