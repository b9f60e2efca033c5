import ModelQuery.Document.Number

/-! The lexemes of a document: punctuation, texts in quotes, and bare words, which are numbers and
the three literals. A bare word reaches up to the next blank, quote or punctuation. -/

namespace ModelQuery.Document

inductive Lexeme
  | openArray
  | closeArray
  | openObject
  | closeObject
  | colon
  | comma
  /-- A text in quotes, or `none` if it holds a surrogate without its partner. -/
  | text (value : Option String)
  /-- A literal or a number. -/
  | bare (value : Document)

namespace Lexeme

def isBlank (c : Char) : Bool :=
  c == ' ' || c == '\t' || c == '\n' || c == '\r'

def quote : Char := '\x22'

def punctuation? : Char → Option Lexeme
  | '[' => some openArray
  | ']' => some closeArray
  | '{' => some openObject
  | '}' => some closeObject
  | ':' => some colon
  | ',' => some comma
  | _ => none

def hexDigit? (c : Char) : Option Nat :=
  let n := c.toNat
  if 48 ≤ n ∧ n ≤ 57 then some (n - 48)
  else if 65 ≤ n ∧ n ≤ 70 then some (n - 55)
  else if 97 ≤ n ∧ n ≤ 102 then some (n - 87)
  else none

/-- The value of four hexadecimal digits. -/
def hex? (a b c d : Char) : Option Nat := do
  let a ← hexDigit? a
  let b ← hexDigit? b
  let c ← hexDigit? c
  let d ← hexDigit? d
  return ((a * 16 + b) * 16 + c) * 16 + d

/-- What a character after a backslash stands for. -/
def escape? : Char → Option Char
  | '\x22' => some quote
  | '\\' => some '\\'
  | '/' => some '/'
  | 'b' => some '\x08'
  | 'f' => some '\x0c'
  | 'n' => some '\n'
  | 'r' => some '\r'
  | 't' => some '\t'
  | _ => none

/-- The code units of what stands between two quotes, a character counting as one unit. -/
def units? : List Char → Option (List Nat)
  | [] => some []
  | '\\' :: 'u' :: a :: b :: c :: d :: cs => do return (← hex? a b c d) :: (← units? cs)
  | '\\' :: c :: cs => do return (← escape? c).toNat :: (← units? cs)
  | c :: cs => if c = '\\' ∨ c.toNat < 0x20 then none else (units? cs).map (c.toNat :: ·)

def isHigh (n : Nat) : Bool := 0xD800 ≤ n && n ≤ 0xDBFF

def isLow (n : Nat) : Bool := 0xDC00 ≤ n && n ≤ 0xDFFF

/-- The characters of code units, two surrogates in a row making one. -/
def characters? : List Nat → Option (List Char)
  | [] => some []
  | [n] => if isHigh n || isLow n then none else some [Char.ofNat n]
  | n :: m :: rest =>
    if isHigh n && isLow m then
      (characters? rest).map (Char.ofNat (0x10000 + (n - 0xD800) * 0x400 + (m - 0xDC00)) :: ·)
    else if isHigh n || isLow n then none
    else (characters? (m :: rest)).map (Char.ofNat n :: ·)

/-- The text between two quotes. -/
def ofQuoted? (cs : List Char) : Option Lexeme :=
  (units? cs).map fun units => text ((characters? units).map String.ofList)

def ofBare? (cs : List Char) : Option Lexeme :=
  if cs = "null".toList then some (bare .null)
  else if cs = "true".toList then some (bare (.boolean true))
  else if cs = "false".toList then some (bare (.boolean false))
  else (ofNumber? cs).map bare

/-- Where the scanner is: between lexemes, in a text, or in a bare word. What was read is kept last
first. -/
inductive Place
  | gap
  | quoted (read : List Char) (escaped : Bool)
  | word (read : List Char)

/-- Steps over a character between two lexemes. -/
def begin (c : Char) : List Lexeme × Place :=
  if isBlank c then ([], .gap)
  else if c = quote then ([], .quoted [] false)
  else match punctuation? c with
    | some lexeme => ([lexeme], .gap)
    | none => ([], .word [c])

/-- Steps over a character, giving the lexemes that it completes. -/
def step (place : Place) (c : Char) : Option (List Lexeme × Place) :=
  match place with
  | .gap => some (begin c)
  | .quoted read true => some ([], .quoted (c :: read) false)
  | .quoted read false =>
    if c = quote then (ofQuoted? read.reverse).map fun lexeme => ([lexeme], .gap)
    else some ([], .quoted (c :: read) (c == '\\'))
  | .word read =>
    if isBlank c || c == quote || (punctuation? c).isSome then
      (ofBare? read.reverse).map fun lexeme => (lexeme :: (begin c).1, (begin c).2)
    else some ([], .word (c :: read))

/-- Scans on from a place. -/
def run (place : Place) : List Char → Option (List Lexeme)
  | [] => match place with
    | .gap => some []
    | .quoted .. => none
    | .word read => (ofBare? read.reverse).map ([·])
  | c :: cs => do
    let (lexemes, place) ← step place c
    return lexemes ++ (← run place cs)

end Lexeme

end ModelQuery.Document
