import ModelQuery.Text.LetterCase

/-! Reading numbers. Nothing may stand around a number, blanks included. -/

namespace ModelQuery.Number

/-- The value of a text of one or more digits. -/
def natural? (cs : List Char) : Option Nat :=
  if cs.isEmpty || !cs.all Char.isDigit then none
  else some (cs.foldl (fun n c => 10 * n + (c.toNat - '0'.toNat)) 0)

/-- Takes a sign off; `true` stands for a minus. -/
def signed : List Char → Bool × List Char
  | '-' :: cs => (true, cs)
  | '+' :: cs => (false, cs)
  | cs => (false, cs)

/-- Reads digits with an optional sign. -/
def int? (cs : List Char) : Option Int :=
  let (negative, digits) := signed cs
  (natural? digits).map fun n => if negative then -(n : Int) else n

/-- Reads a whole number that 64 bits can hold. -/
def int64? (cs : List Char) : Option Int64 :=
  (int? cs).bind fun n =>
    if Int64.minValue.toInt ≤ n ∧ n ≤ Int64.maxValue.toInt then some (Int64.ofInt n) else none

/-- Reads a whole number from 0 that 64 bits can hold. No minus is allowed, not even before 0. -/
def size? (cs : List Char) : Option Nat :=
  let digits := match cs with
    | '+' :: digits => digits
    | digits => digits
  (natural? digits).bind fun n => if n < Nat.pow 2 64 then some n else none

/-- The double nearest to `digits * 10 ^ place`. Far outside the range of doubles the result is
known from the count of digits alone. -/
def nearest (digits : Nat) (place : Int) : Float :=
  if digits = 0 then 0.0
  else
    let top := place + (toString digits).length
    if top > 400 then Float.ofScientific 1 false 400
    else if top < -400 then 0.0
    else Float.ofScientific digits (place < 0) place.natAbs

/-- Reads the digits, the fraction and the exponent of a decimal. At least one digit has to stand
beside the point. -/
def decimal? (cs : List Char) : Option Float :=
  let whole := cs.takeWhile Char.isDigit
  let rest := cs.dropWhile Char.isDigit
  let (fraction, rest) := match rest with
    | '.' :: rest => (rest.takeWhile Char.isDigit, rest.dropWhile Char.isDigit)
    | rest => ([], rest)
  (natural? (whole ++ fraction)).bind fun digits =>
    match rest with
    | [] => some (nearest digits (-(fraction.length : Int)))
    | e :: power =>
      if e.toLower = 'e' then
        (int? power).map fun power => nearest digits (power - fraction.length)
      else none

/-- Reads a double: a decimal or one of the words `inf`, `infinity` and `nan` in any case, with an
optional sign. -/
def float? (cs : List Char) : Option Float :=
  let (negative, magnitude) := signed cs
  let infinity := Float.ofScientific 1 false 400
  let found :=
    if Text.sameLetters magnitude "inf".toList || Text.sameLetters magnitude "infinity".toList then
      some infinity
    else if Text.sameLetters magnitude "nan".toList then some (infinity - infinity)
    else decimal? magnitude
  found.map fun x => if negative then -x else x

end ModelQuery.Number
