import ModelQuery.Proofs.Catalog.Partition
import ModelQuery.Proofs.Catalog.Spelled
import ModelQuery.Proofs.Number.Digits
import ModelQuery.Proofs.Number.Exact

/-! Comparing stored numbers with a whole one. A stored number is compared exactly as long as it is
whole and 64 bits hold it. One that is not whole passes no comparison. One that is whole and too
large or too small is compared as the last number in its direction that 64 bits hold. -/

namespace ModelQuery

namespace Comparison

/-- What a comparison says of two whole numbers. -/
def Relates (a b : Int) : Comparison → Prop
  | isEqual => a = b
  | isNotEqual => a ≠ b
  | greaterThan => b < a
  | greaterOrEqual => b ≤ a
  | smallerThan => a < b
  | smallerOrEqual => a ≤ b
  | _ => False

theorem acceptsOrder_compare_iff {c : Comparison} {a b : Int} :
    c.acceptsOrder (compare a b) = true ↔ c.Relates a b := by
  cases c with
  | contains | notContains | startsWith | notStartsWith | endsWith | notEndsWith =>
    exact iff_of_false Bool.false_ne_true id
  | isEqual => simp [acceptsOrder, Relates]
  | isNotEqual => simp [acceptsOrder, Relates]
  | greaterThan => exact beq_iff_eq.trans compare_gt_iff_gt
  | greaterOrEqual => exact bne_iff_ne.trans compare_ge_iff_ge
  | smallerThan => exact beq_iff_eq.trans compare_lt_iff_lt
  | smallerOrEqual => exact bne_iff_ne.trans compare_le_iff_le

end Comparison

theorem toInt_ofIntClamp (n : Int) :
    (Int64.ofIntClamp n).toInt = max (-2 ^ 63) (min n (2 ^ 63 - 1)) := by
  have hmin : Int64.minValue.toInt = -2 ^ 63 := by decide
  have hmax : Int64.maxValue.toInt = 2 ^ 63 - 1 := by decide
  unfold Int64.ofIntClamp
  split
  · split
    · rw [Int64.toInt_ofIntLE]
      omega
    · omega
  · omega

namespace Value

/-- The exact number that is stored, where a finite one is. -/
def rational? : Value → Option ℚ
  | integer n => some (n.toInt : ℚ)
  | number x => (Binary.ofFloat x).value?
  | boolean _ | text _ => none

variable {value : Value} {n : Int} {q : ℚ}

theorem int64?_of_whole (h : value.rational? = some (n : ℚ)) :
    value.int64? = some (Int64.ofIntClamp n) := by
  cases value with
  | boolean | text => cases h
  | integer k =>
    have hk : k.toInt = n := by exact_mod_cast Option.some.inj h
    rw [← hk, Int64.ofIntClamp_toInt]
    rfl
  | number x => rw [int64?, Binary.toInt?_eq_some_iff.mpr h, Option.map_some]

theorem int64?_of_not_whole (h : value.rational? = some q) (hq : ∀ n : Int, q ≠ n) :
    value.int64? = none := by
  cases value with
  | boolean | text => cases h
  | integer k => exact absurd (Option.some.inj h).symm (hq k.toInt)
  | number x =>
    cases hn : (Binary.ofFloat x).toInt? with
    | none => rw [int64?, hn, Option.map_none]
    | some n =>
      have hvalue := Binary.toInt?_eq_some_iff.mp hn
      exact absurd (Option.some.inj (h.symm.trans hvalue)) (hq n)

end Value

namespace Predicate

variable {predicate : Predicate} {k : Int64} {object : Object} {actual : Value} {n : Int} {q : ℚ}

theorem holds_integer (hoperand : predicate.operand = .integer k)
    (hscope : predicate.category.contains object.category = true)
    (hstored : predicate.stored? object = some actual) :
    predicate.holds object = actual.int64?.any fun found =>
      predicate.comparison.acceptsOrder (compare found.toInt k.toInt) := by
  rw [holds, hscope, hstored, Bool.true_and]
  simp only [accepts, hoperand]
  cases actual.int64? <;> rfl

theorem holds_iff_of_whole (hoperand : predicate.operand = .integer k)
    (hscope : predicate.category.contains object.category = true)
    (hstored : predicate.stored? object = some actual) (hexact : actual.rational? = some (n : ℚ)) :
    predicate.holds object = true ↔
      predicate.comparison.Relates (max (-2 ^ 63) (min n (2 ^ 63 - 1))) k.toInt := by
  rw [holds_integer hoperand hscope hstored, Value.int64?_of_whole hexact, Option.any_some,
    Comparison.acceptsOrder_compare_iff, toInt_ofIntClamp]

theorem holds_of_not_whole (hoperand : predicate.operand = .integer k)
    (hscope : predicate.category.contains object.category = true)
    (hstored : predicate.stored? object = some actual) (hexact : actual.rational? = some q)
    (hq : ∀ n : Int, q ≠ n) : predicate.holds object = false := by
  rw [holds_integer hoperand hscope hstored, Value.int64?_of_not_whole hexact hq, Option.any_none]

end Predicate

namespace Catalog

variable {catalog : Catalog} {clause : Clause} {predicate : Predicate} {object : Object}
  {actual : Value} {q : ℚ}

/-- A property of whole numbers that an object stores as a number is compared exactly if 64 bits
hold it, and with no success if it is not whole. Beyond their range it is taken for the end of it,
so that it equals that end. -/
theorem holds_of_exact (h : catalog.resolver clause = .ok predicate)
    (hkind : predicate.property.kind = .integer)
    (hscope : predicate.category.contains object.category = true)
    (hstored : predicate.stored? object = some actual) (hexact : actual.rational? = some q) :
    ∃ k : Int64, predicate.operand = .integer k ∧
      (∀ n : Int, q = n → -2 ^ 63 ≤ n → n < 2 ^ 63 →
        (predicate.holds object = true ↔ predicate.comparison.Relates n k.toInt)) ∧
      ((∀ n : Int, q ≠ n) → predicate.holds object = false) ∧
      (∀ n : Int, q = n → 2 ^ 63 ≤ n →
        (predicate.holds object = true ↔ predicate.comparison.Relates (2 ^ 63 - 1) k.toInt)) ∧
      (∀ n : Int, q = n → n < -2 ^ 63 →
        (predicate.holds object = true ↔ predicate.comparison.Relates (-2 ^ 63) k.toInt)) := by
  have hof := operand_of_resolver h
  rw [hkind] at hof
  obtain ⟨k, -, hk⟩ := Option.map_eq_some_iff.mp hof
  have hoperand : predicate.operand = .integer k := hk.symm
  have hwhole : ∀ {n taken : Int}, q = n → max (-2 ^ 63) (min n (2 ^ 63 - 1)) = taken →
      (predicate.holds object = true ↔ predicate.comparison.Relates taken k.toInt) := by
    rintro n taken rfl rfl
    exact Predicate.holds_iff_of_whole hoperand hscope hstored hexact
  exact ⟨k, hoperand, fun n hn hlow hhigh => hwhole hn (by omega),
    Predicate.holds_of_not_whole hoperand hscope hstored hexact,
    fun n hn hhigh => hwhole hn (by omega), fun n hn hlow => hwhole hn (by omega)⟩

/-- The first double beyond 64 bits equals the last number that they hold. The double before it is
held, and it does not. -/
theorem holds_of_exact_beyond :
    let phase : Property := ⟨"PHASE", .integer, []⟩
    let part : Category := ⟨"Part", [], false, [phase]⟩
    let predicate : Predicate := ⟨part, phase, .isEqual, .integer Int64.maxValue⟩
    let object : Float → Object := fun x => ⟨"1", "Part", [("PHASE", .number x)]⟩
    resolver ⟨[part]⟩ ⟨"Part", "PHASE", "IS_EQUAL", "9223372036854775807"⟩ = .ok predicate ∧
      (Value.number 9223372036854775808).rational? = some ((2 ^ 63 : Int) : ℚ) ∧
      predicate.holds (object 9223372036854775808) = true ∧
      (Value.number 9223372036854774784).rational? = some ((2 ^ 63 - 1024 : Int) : ℚ) ∧
      predicate.holds (object 9223372036854774784) = false := by
  intro phase part predicate object
  have hcategory : category? ⟨[part]⟩ "Part" = some part := by decide +kernel
  have hproperty : part.property? "PHASE" = some phase := by decide +kernel
  have hcomparison : Comparison.ofField "IS_EQUAL" = .isEqual := by decide +kernel
  have hoperand : Operand.ofText? .integer "9223372036854775807" =
      some (.integer Int64.maxValue) :=
    congrArg (Option.map Operand.integer) (Number.int64?_toString Int64.maxValue)
  have hresolved : resolver ⟨[part]⟩ ⟨"Part", "PHASE", "IS_EQUAL", "9223372036854775807"⟩ =
      .ok predicate := resolver_eq_ok hcategory hproperty hcomparison rfl hoperand
  have hpart : part.contains "Part" = true := by decide +kernel
  have hscope : ∀ x, predicate.category.contains (object x).category = true := fun _ => hpart
  have hstored : ∀ x, predicate.stored? (object x) = some (.number x) := by
    intro x
    simp [Predicate.stored?, predicate, object, Property.names, Object.property?, Keyed.get?, phase]
  have hexact : ∀ x (n : Int), (Binary.ofFloat x).toInt? = some n →
      (Value.number x).rational? = some (n : ℚ) := fun x n => Binary.toInt?_eq_some_iff.mp
  have hbeyond := hexact 9223372036854775808 (2 ^ 63) (by decide +kernel)
  have hheld := hexact 9223372036854774784 (2 ^ 63 - 1024) (by decide +kernel)
  have hlast : (2 ^ 63 - 1 : Int) = Int64.maxValue.toInt := by decide
  have hless : (2 ^ 63 - 1024 : Int) ≠ Int64.maxValue.toInt := by decide
  obtain ⟨k, hk, -, -, habove, -⟩ :=
    holds_of_exact hresolved rfl (hscope _) (hstored 9223372036854775808) hbeyond
  obtain ⟨k', hk', hwithin, -⟩ :=
    holds_of_exact hresolved rfl (hscope _) (hstored 9223372036854774784) hheld
  obtain rfl : Int64.maxValue = k := Operand.integer.inj hk
  obtain rfl : Int64.maxValue = k' := Operand.integer.inj hk'
  exact ⟨hresolved, hbeyond, (habove _ rfl (by decide)).mpr hlast, hheld,
    Bool.eq_false_iff.mpr (mt (hwithin _ rfl (by decide) (by decide)).mp hless)⟩

end Catalog

end ModelQuery
