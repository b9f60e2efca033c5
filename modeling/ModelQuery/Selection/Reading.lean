import ModelQuery.Number.Reading
import ModelQuery.Selection.Instant
import ModelQuery.Text.Blank

/-! Reading moments. Blanks may stand between the parts, the parts need not have all their digits,
and the time may be that of another zone, which is told at the end. -/

namespace ModelQuery.Instant

/-- Takes off a number of at least one and at most `most` digits. -/
def number? (most : Nat) (cs : List Char) : Option (Nat × List Char) :=
  let digits := (cs.take most).takeWhile Char.isDigit
  (Number.natural? digits).map fun n => (n, cs.drop digits.length)

/-- A field of the date or the time: blanks and then one or two digits. -/
def field? (cs : List Char) : Option (Nat × List Char) :=
  number? 2 (Text.trimStart cs)

/-- A year has up to four digits, with a sign any number of them. -/
def year? (cs : List Char) : Option (Int × List Char) :=
  match Text.trimStart cs with
  | '-' :: cs => (number? cs.length cs).map fun (n, rest) => (-(n : Int), rest)
  | '+' :: cs => (number? cs.length cs).map fun (n, rest) => ((n : Int), rest)
  | cs => (number? 4 cs).map fun (n, rest) => ((n : Int), rest)

/-- Takes off a character with blanks before it. -/
def skip? (c : Char) (cs : List Char) : Option (List Char) :=
  match Text.trimStart cs with
  | d :: rest => if c = d then some rest else none
  | [] => none

/-- The billionths that a fraction spells; digits after the ninth do not count. -/
def fraction? : List Char → Option (Nat × List Char)
  | '.' :: cs => do
    let digits := (cs.take 9).takeWhile Char.isDigit
    let n ← Number.natural? digits
    return (n * Nat.pow 10 (9 - digits.length), cs.dropWhile Char.isDigit)
  | cs => some (0, cs)

/-- Two digits of which the first is at most `most`. -/
def pair? (most : Nat) : List Char → Option (Nat × List Char)
  | a :: b :: rest =>
    if a.isDigit && b.isDigit && a.toNat - '0'.toNat ≤ most then
      some ((a.toNat - '0'.toNat) * 10 + (b.toNat - '0'.toNat), rest)
    else none
  | _ => none

/-- The hours and minutes after the sign of a zone, with any colons and blanks between them, as
seconds. -/
def zoneTime? (cs : List Char) : Option (Int × List Char) := do
  let (hours, cs) ← pair? 9 cs
  let (minutes, cs) ← pair? 5 (cs.dropWhile fun c => c == ':' || Text.isBlank c)
  return (((hours * 3600 + minutes * 60 : Nat) : Int), cs)

/-- How far a zone is ahead of UTC, in seconds. -/
def zone? (cs : List Char) : Option (Int × List Char) :=
  if Text.sameLetters (cs.take 3) "UTC".toList then some (0, cs.drop 3)
  else match cs with
    | 'Z' :: rest | 'z' :: rest => some (0, rest)
    | '+' :: rest => zoneTime? rest
    | '-' :: rest | '−' :: rest => (zoneTime? rest).map fun (offset, rest) => (-offset, rest)
    | _ => none

/-- The moment of a date and a time of a zone, if there are such a date, time and zone. -/
def ofParts? (year : Int) (month day hour minute second nanos : Nat) (zone : Int) :
    Option Instant :=
  if firstYear ≤ year ∧ year ≤ lastYear ∧ 1 ≤ month ∧ month ≤ 12 ∧ 1 ≤ day ∧
      day ≤ daysInMonth year month ∧ hour < 24 ∧ minute < 60 ∧ second ≤ 60 ∧
      zone.natAbs < 86400 then
    let leap := second / 60
    let seconds := daysOfDate year month day * 86400 +
      (hour * 3600 + minute * 60 + (second - leap) : Nat) - zone
    if firstSecond ≤ seconds ∧ seconds ≤ last.seconds then
      some ⟨seconds, nanos + leap * 1000000000⟩
    else none
  else none

/-- Reads a moment. -/
def ofText? (text : String) : Option Instant := do
  let (year, cs) ← year? text.toList
  let (month, cs) ← field? (← skip? '-' cs)
  let (day, cs) ← field? (← skip? '-' cs)
  let cs ← match cs with
    | 'T' :: rest | 't' :: rest | ' ' :: rest => some rest
    | _ => none
  let (hour, cs) ← field? cs
  let (minute, cs) ← field? (← skip? ':' cs)
  let (second, cs) ← field? (← skip? ':' cs)
  let (nanos, cs) ← fraction? cs
  let (zone, cs) ← zone? (Text.trimStart cs)
  if cs.all Text.isBlank then ofParts? year month day hour minute second nanos zone else none

end ModelQuery.Instant
