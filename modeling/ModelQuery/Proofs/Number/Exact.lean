import ModelQuery.Number.Binary
import Mathlib.Algebra.Order.Field.Rat
import Mathlib.Tactic.Ring

/-! The exact number that a double stands for. A finite double is a rational number, and it is taken
for a whole one exactly if that number is whole. -/

namespace ModelQuery.Binary

/-- What the sign of a double multiplies its magnitude by. -/
def unit (negative : Bool) : Int :=
  if negative then -1 else 1

/-- The rational number that a double is. -/
def value? : Binary → Option ℚ
  | finite negative mantissa exponent => some (unit negative * mantissa * 2 ^ exponent)
  | infinite _ | nan => none

theorem signed_eq (negative : Bool) (n : Nat) :
    (if negative then -(n : Int) else n) = unit negative * n := by
  cases negative <;> simp [unit]

theorem dvd_unit_mul_iff {negative : Bool} {d m : Int} : d ∣ unit negative * m ↔ d ∣ m := by
  cases negative <;> simp [unit]

variable {negative : Bool} {mantissa : Nat} {exponent n : Int}

theorem toInt?_of_nonneg (h : 0 ≤ exponent) :
    (finite negative mantissa exponent).toInt? =
      some (unit negative * (mantissa * 2 ^ exponent.toNat : Nat)) := by
  rw [toInt?, if_pos h]
  exact congrArg some (signed_eq negative _)

theorem toInt?_of_neg (h : exponent < 0) :
    (finite negative mantissa exponent).toInt? = some n ↔
      unit negative * mantissa = n * 2 ^ (-exponent).toNat := by
  have hpos : (0 : Int) < 2 ^ (-exponent).toNat := Int.pow_pos (by decide)
  rw [toInt?, if_neg (by omega)]
  simp only [signed_eq, show Nat.pow 2 (-exponent).toNat = 2 ^ (-exponent).toNat from rfl]
  by_cases hd : 2 ^ (-exponent).toNat ∣ mantissa
  · obtain ⟨whole, rfl⟩ := hd
    rw [if_pos (Nat.mul_mod_right ..), Nat.mul_div_cancel_left _ (Nat.two_pow_pos _), Option.some.injEq]
    push_cast
    constructor
    · rintro rfl
      ring
    · intro he
      refine mul_right_cancel₀ hpos.ne' ?_
      rw [← he]
      ring
  · rw [if_neg (mt Nat.dvd_of_mod_eq_zero hd)]
    refine iff_of_false (Option.some_ne_none n).symm fun he => hd ?_
    have hsigned : (2 ^ (-exponent).toNat : Int) ∣ unit negative * mantissa := ⟨n, by rw [he]; ring⟩
    exact_mod_cast dvd_unit_mul_iff.mp hsigned

/-- A double is taken for a whole number exactly if it is one. -/
theorem toInt?_eq_some_iff {b : Binary} : b.toInt? = some n ↔ b.value? = some (n : ℚ) := by
  cases b with
  | infinite | nan => simp [toInt?, value?]
  | finite negative mantissa exponent =>
    rw [value?, Option.some.injEq]
    rcases lt_or_ge exponent 0 with h | h
    · have hpower : (2 : ℚ) ^ exponent = ((2 : ℚ) ^ (-exponent).toNat)⁻¹ := by
        rw [← zpow_natCast, ← zpow_neg, Int.toNat_of_nonneg (by omega), neg_neg]
      rw [toInt?_of_neg h, hpower, mul_inv_eq_iff_eq_mul₀ (pow_ne_zero _ two_ne_zero)]
      exact_mod_cast Iff.rfl
    · have hpower : (2 : ℚ) ^ exponent = (2 : ℚ) ^ exponent.toNat := by
        rw [← zpow_natCast, Int.toNat_of_nonneg h]
      rw [toInt?_of_nonneg h, hpower, Option.some.injEq, mul_assoc]
      exact_mod_cast Iff.rfl

end ModelQuery.Binary
