import ModelQuery.Document.Basic
import ModelQuery.Number.Reading

/-! Numbers in documents. Whole numbers stay whole as far as 64 bits with a sign reach. Any other
number is a double: its leading digits, as many as 64 bits hold, scaled by a power of ten in one
rounded step. -/

namespace ModelQuery.Document

/-- Takes up digits as long as the number stays below `2 ^ 64`; gives the number, how many digits
were taken, and how many were left. -/
def absorb (number taken : Nat) : List Char → Nat × Nat × Nat
  | [] => (number, taken, 0)
  | c :: cs =>
    let next := 10 * number + (c.toNat - '0'.toNat)
    if next < Nat.pow 2 64 then absorb next (taken + 1) cs else (number, taken, cs.length + 1)

def powerOfTen (n : Nat) : Float :=
  Float.ofScientific 1 false n

/-- Divides by a power of ten, in steps when the power itself is no double. -/
def scaleDown (x : Float) (power : Nat) : Float :=
  if power ≤ 308 then x / powerOfTen power
  else if x == 0.0 then 0.0
  else scaleDown (x / powerOfTen 308) (power - 308)
termination_by power

/-- Multiplies by a power of ten; there is no result beyond the largest double. -/
def scale? (x : Float) (power : Int) : Option Float :=
  if power < 0 then some (scaleDown x power.natAbs)
  else if power ≤ 308 then
    let product := x * powerOfTen power.natAbs
    if product.isInf then none else some product
  else if x == 0.0 then some 0.0
  else none

/-- The double that digits, digits after the point, and a power of ten stand for. -/
def ofDecimal (negative : Bool) (whole fraction : List Char) (power : Int) : Document :=
  let (number, _, left) := absorb 0 0 whole
  let (number, taken, _) := absorb number 0 fraction
  match scale? (Float.ofNat number) (power + left - taken) with
  | some x => real (if negative then -x else x)
  | none => broken

/-- The number that digits without point and exponent stand for. Zero with a minus is a double, as
only there its sign can be kept. -/
def ofWhole (negative : Bool) (digits : List Char) : Document :=
  let (number, _, left) := absorb 0 0 digits
  if left ≠ 0 then ofDecimal negative digits [] 0
  else if negative then
    if number = 0 ∨ Nat.pow 2 63 < number then real (-Float.ofNat number)
    else integer (-(number : Int))
  else if number < Nat.pow 2 63 then integer number
  else real (Float.ofNat number)

/-- The power of ten that a number ends in, `some 0` if it ends here. -/
def power? : List Char → Option Int
  | [] => some 0
  | e :: digits => if e = 'e' ∨ e = 'E' then Number.int? digits else none

/-- Reads a number: a whole part without needless zeros, and perhaps a point with digits and a power
of ten. -/
def ofNumber? (cs : List Char) : Option Document :=
  let (negative, cs) := match cs with
    | '-' :: cs => (true, cs)
    | cs => (false, cs)
  let whole := cs.takeWhile Char.isDigit
  if whole.isEmpty || (whole.head? == some '0' && whole.length != 1) then none
  else match cs.dropWhile Char.isDigit with
    | [] => some (ofWhole negative whole)
    | '.' :: rest =>
      let fraction := rest.takeWhile Char.isDigit
      if fraction.isEmpty then none
      else (power? (rest.dropWhile Char.isDigit)).map (ofDecimal negative whole fraction)
    | rest => (power? rest).map (ofDecimal negative whole [])

end ModelQuery.Document
