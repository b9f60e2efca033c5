import ModelQuery.Number.Reading
import ModelQuery.Selection.Instant
import ModelQuery.Document.Lexeme
import ModelQuery.Sections.Value

/-! Values without quotes or brackets: truth values, numbers, dates and times. Digits of numbers may
be parted by single underscores. -/

namespace ModelQuery.Sections

/-- The digits of a number, without the underscores between them. -/
def digits? (isDigit : Char → Bool) : List Char → Option (List Char)
  | [] => none
  | [c] => if isDigit c then some [c] else none
  | c :: '_' :: rest => if isDigit c then (digits? isDigit rest).map (c :: ·) else none
  | c :: rest => if isDigit c then (digits? isDigit rest).map (c :: ·) else none

/-- The digits of a decimal number, of which only the number zero may begin with a zero. -/
def decimals? (cs : List Char) : Option (List Char) :=
  (digits? Char.isDigit cs).bind fun digits =>
    if digits.length = 1 ∨ digits.head? ≠ some '0' then some digits else none

/-- The value of digits to a base. -/
def ofDigits (base : Nat) (digits : List Char) : Nat :=
  digits.foldl (fun n c => base * n + (Document.Lexeme.hexDigit? c).getD 0) 0

/-- The number of digits to a base, each of which has to be below the base. -/
def natural? (base : Nat) (cs : List Char) : Option Nat :=
  (digits? (fun c => (Document.Lexeme.hexDigit? c).any (· < base)) cs).map (ofDigits base)

/-- A whole number. Only a decimal one may have a sign. -/
def integer? : List Char → Option Int
  | '0' :: 'x' :: cs => (natural? 16 cs).map Int.ofNat
  | '0' :: 'o' :: cs => (natural? 8 cs).map Int.ofNat
  | '0' :: 'b' :: cs => (natural? 2 cs).map Int.ofNat
  | cs =>
    let (negative, body) := Number.signed cs
    (decimals? body).map fun digits =>
      let n := Int.ofNat (ofDigits 10 digits)
      if negative then -n else n

/-- A whole number that 64 bits with a sign hold. -/
def int64? (cs : List Char) : Option Int :=
  (integer? cs).bind fun n =>
    if Int64.minValue.toInt ≤ n ∧ n ≤ Int64.maxValue.toInt then some n else none

def isExponentMark (c : Char) : Bool :=
  c == 'e' || c == 'E'

/-- Whether this is an exponent with its mark. -/
def isExponent : List Char → Bool
  | mark :: cs => isExponentMark mark && (digits? Char.isDigit (Number.signed cs).2).isSome
  | [] => false

/-- Whether these are the parts of a number after its whole part: a fraction, an exponent, or a
fraction and then an exponent. -/
def isFraction : List Char → Bool
  | '.' :: cs =>
    let (fraction, rest) := cs.span (!isExponentMark ·)
    (digits? Char.isDigit fraction).isSome && (rest.isEmpty || isExponent rest)
  | cs => isExponent cs

/-- Whether this is a number with a fraction or an exponent, a sign before it being allowed. A
number that rounds to the upward infinity is none. -/
def isReal (cs : List Char) : Bool :=
  let (_, body) := Number.signed cs
  if body = ['i', 'n', 'f'] ∨ body = ['n', 'a', 'n'] then true
  else
    let (whole, rest) := body.span fun c => c.isDigit || c == '_'
    (decimals? whole).isSome && isFraction rest &&
      (Number.float? (cs.filter (· != '_'))).any fun x => x.isFinite || x < 0

/-- The number that two digits make. -/
def pair? (a b : Char) : Option Nat := Number.natural? [a, b]

/-- Whether two digits make a number from `least` to `most`. -/
def isPair (least most : Nat) (a b : Char) : Bool :=
  (pair? a b).any fun n => least ≤ n && n ≤ most

/-- Whether this is a day of the calendar. -/
def isDate : List Char → Bool
  | [y1, y2, y3, y4, '-', m1, m2, '-', d1, d2] =>
    match Number.natural? [y1, y2, y3, y4], pair? m1 m2, pair? d1 d2 with
    | some year, some month, some day =>
      1 ≤ month && month ≤ 12 && 1 ≤ day && day ≤ Instant.daysInMonth year month
    | _, _, _ => false
  | _ => false

/-- Whether this is a time of day. The last minute may have a second more. -/
def isTime : List Char → Bool
  | h1 :: h2 :: ':' :: m1 :: m2 :: ':' :: s1 :: s2 :: rest =>
    isPair 0 23 h1 h2 && isPair 0 59 m1 m2 && isPair 0 60 s1 s2 &&
      match rest with
      | [] => true
      | '.' :: digits => (Number.natural? digits).isSome
      | _ => false
  | _ => false

/-- Whether this is a distance from UTC. -/
def isZone : List Char → Bool
  | ['Z'] | ['z'] => true
  | [sign, h1, h2, ':', m1, m2] =>
    (sign == '+' || sign == '-') && isPair 0 23 h1 h2 && isPair 0 59 m1 m2
  | _ => false

/-- Whether this is a date, a time, or a date and a time; only the last may have a zone. -/
def isMoment (cs : List Char) : Bool :=
  isTime cs || isDate cs || match cs.splitAt 10 with
    | (date, mark :: rest) =>
      let (time, zone) := rest.span fun c => c.isDigit || c == ':' || c == '.'
      (mark == 'T' || mark == 't' || mark == ' ') && isDate date && isTime time &&
        (zone.isEmpty || isZone zone)
    | _ => false

/-- The value of a word without quotes. -/
def scalar? (cs : List Char) : Option Value :=
  if cs = ['t', 'r', 'u', 'e'] then some (.boolean true)
  else if cs = ['f', 'a', 'l', 's', 'e'] then some (.boolean false)
  else if isMoment cs then some .moment
  else match int64? cs with
    | some n => some (.integer n)
    | none => if isReal cs then some .real else none

end ModelQuery.Sections
