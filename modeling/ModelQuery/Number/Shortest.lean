import ModelQuery.Number.Binary

/-! The shortest decimal that stands for a double: of all decimals that round to it, those with the
fewest digits, and of these the nearest. The decimals that round to a double are those between the
points half way to its neighbours, and the half-way points belong to it if its mantissa is even. -/

namespace ModelQuery.Shortest

/-- Which of two equally near decimals is taken. -/
inductive Tie
  /-- The larger one. -/
  | up
  /-- The one whose last digit is even. -/
  | even
  deriving DecidableEq, Repr

/-- A double and the interval that rounds to it, in a unit of which all of them are multiples and
of which `10 ^ place` is `grid` units. -/
structure Interval where
  low : Nat
  value : Nat
  high : Nat
  closed : Bool
  grid : Nat
  deriving Repr

/-- The interval of `mantissa * 2 ^ exponent`, measured for decimals that end at `place`. Below a
power of two the neighbour is only half as far away. -/
def interval (mantissa : Nat) (exponent place : Int) : Interval :=
  let scale := Nat.pow 2 (exponent - 2).toNat * Nat.pow 10 (-place).toNat
  let below := if mantissa = Nat.pow 2 52 ∧ exponent ≠ -1074 then 1 else 2
  { low := (4 * mantissa - below) * scale
    value := 4 * mantissa * scale
    high := (4 * mantissa + 2) * scale
    closed := mantissa % 2 == 0
    grid := Nat.pow 10 place.toNat * Nat.pow 2 (2 - exponent).toNat }

namespace Interval

def contains (i : Interval) (n : Nat) : Bool :=
  if i.closed then i.low ≤ n && n ≤ i.high else i.low < n && n < i.high

/-- The nearer of the two multiples of `grid` beside the value, among those in the interval. -/
def nearest? (i : Interval) (tie : Tie) : Option Nat :=
  let below := i.value / i.grid
  let above := below + 1
  match i.contains (below * i.grid), i.contains (above * i.grid) with
  | false, false => none
  | true, false => some below
  | false, true => some above
  | true, true =>
    let down := i.value - below * i.grid
    let up := above * i.grid - i.value
    if down < up then some below
    else if up < down then some above
    else match tie with
      | .up => some above
      | .even => some (if below % 2 = 0 then below else above)

end Interval

/-- Looks for a decimal that ends at `place` or at one of the `more` places after it. -/
def search (tie : Tie) (mantissa : Nat) (exponent place : Int) : Nat → Nat × Int
  | 0 => (((interval mantissa exponent place).nearest? tie).getD 0, place)
  | more + 1 =>
    match (interval mantissa exponent place).nearest? tie with
    | some digits => (digits, place)
    | none => search tie mantissa exponent (place - 1) more

/-- A place above the first digit of `mantissa * 2 ^ exponent`. -/
def topPlace (mantissa : Nat) (exponent : Int) : Int :=
  (((mantissa.log2 : Int) + 1 + exponent) * 30103).fdiv 100000 + 1

/-- The digits of the shortest decimal and the place at which they end, so that the decimal is
`digits * 10 ^ place`. Seventeen digits are always enough, and the search starts at most three
places above the first of them. -/
def decimal (tie : Tie) (mantissa : Nat) (exponent : Int) : Nat × Int :=
  if mantissa = 0 then (0, 0)
  else search tie mantissa exponent (topPlace mantissa exponent) 20

end ModelQuery.Shortest
