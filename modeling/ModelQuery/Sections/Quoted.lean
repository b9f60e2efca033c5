import ModelQuery.Document.Lexeme

/-! Texts in quotes. There are four forms: between double quotes a backslash begins an escape, and
between single ones it does not; both may be tripled, and then the text may go over several lines.
Each reader starts after the opening quotes and also returns what follows the closing ones. -/

namespace ModelQuery.Sections

def quote : Char := '\x22'

def apostrophe : Char := '\x27'

def isBlank (c : Char) : Bool :=
  c == ' ' || c == '\t'

/-- Whether a character may stand for itself in a line. -/
def isPlain (c : Char) : Bool :=
  c == '\t' || (' ' ≤ c && c != '\x7f')

namespace Quoted

/-- The character of a code point in hexadecimal digits. -/
def codePoint? (digits : List Char) : Option Char := do
  let digits ← digits.mapM Document.Lexeme.hexDigit?
  let n := digits.foldl (fun n digit => 16 * n + digit) 0
  if n.isValidChar then some (Char.ofNat n) else none

/-- What a character after a backslash stands for. -/
def escape? : Char → Option Char
  | 'b' => some '\x08'
  | 't' => some '\t'
  | 'n' => some '\n'
  | 'f' => some '\x0c'
  | 'r' => some '\r'
  | '\x22' => some quote
  | '\\' => some '\\'
  | _ => none

/-- Puts a character before a text that was read. -/
def before (c : Char) (read : List Char × List Char) : List Char × List Char :=
  (c :: read.1, read.2)

/-- Reads up to a double quote. -/
def basic? : List Char → Option (List Char × List Char)
  | [] => none
  | '\x22' :: rest => some ([], rest)
  | '\\' :: 'u' :: a :: b :: c :: d :: rest => do
    return before (← codePoint? [a, b, c, d]) (← basic? rest)
  | '\\' :: 'U' :: a :: b :: c :: d :: e :: f :: g :: h :: rest => do
    return before (← codePoint? [a, b, c, d, e, f, g, h]) (← basic? rest)
  | '\\' :: c :: rest => do return before (← escape? c) (← basic? rest)
  | c :: rest => if isPlain c ∧ c ≠ '\\' then (basic? rest).map (before c) else none

/-- Reads up to a single quote. -/
def literal? : List Char → Option (List Char × List Char)
  | [] => none
  | '\x27' :: rest => some ([], rest)
  | c :: rest => if isPlain c then (literal? rest).map (before c) else none

/-- Whether a line ends here but for blanks. -/
def isLineRest (cs : List Char) : Bool :=
  match cs.dropWhile isBlank with
  | '\n' :: _ | '\r' :: '\n' :: _ => true
  | _ => false

/-- Reads up to three double quotes in a row, before which two more may belong to the text. A
backslash at the end of a line takes away all blanks and line ends up to the next character;
`folding` says that this is going on. -/
def basicLines? (folding : Bool) : List Char → Option (List Char × List Char)
  | [] => none
  | '\x22' :: '\x22' :: '\x22' :: '\x22' :: '\x22' :: rest => some ([quote, quote], rest)
  | '\x22' :: '\x22' :: '\x22' :: '\x22' :: rest => some ([quote], rest)
  | '\x22' :: '\x22' :: '\x22' :: rest => some ([], rest)
  | '\r' :: '\n' :: rest | '\n' :: rest =>
    if folding then basicLines? true rest else (basicLines? false rest).map (before '\n')
  | '\\' :: 'u' :: a :: b :: c :: d :: rest => do
    return before (← codePoint? [a, b, c, d]) (← basicLines? false rest)
  | '\\' :: 'U' :: a :: b :: c :: d :: e :: f :: g :: h :: rest => do
    return before (← codePoint? [a, b, c, d, e, f, g, h]) (← basicLines? false rest)
  | '\\' :: c :: rest =>
    if isLineRest (c :: rest) then basicLines? true (c :: rest)
    else do return before (← escape? c) (← basicLines? false rest)
  | c :: rest =>
    if folding && isBlank c then basicLines? true rest
    else if isPlain c ∧ c ≠ '\\' then (basicLines? false rest).map (before c)
    else none

/-- Reads up to three single quotes in a row, before which two more may belong to the text. -/
def literalLines? : List Char → Option (List Char × List Char)
  | [] => none
  | '\x27' :: '\x27' :: '\x27' :: '\x27' :: '\x27' :: rest => some ([apostrophe, apostrophe], rest)
  | '\x27' :: '\x27' :: '\x27' :: '\x27' :: rest => some ([apostrophe], rest)
  | '\x27' :: '\x27' :: '\x27' :: rest => some ([], rest)
  | '\r' :: '\n' :: rest | '\n' :: rest => (literalLines? rest).map (before '\n')
  | c :: rest => if isPlain c then (literalLines? rest).map (before c) else none

/-- The line end after three opening quotes does not belong to the text. -/
def afterOpening : List Char → List Char
  | '\n' :: rest | '\r' :: '\n' :: rest => rest
  | rest => rest

/-- Reads a text from its opening quotes on. -/
def text? : List Char → Option (List Char × List Char)
  | '\x22' :: '\x22' :: '\x22' :: rest => basicLines? false (afterOpening rest)
  | '\x27' :: '\x27' :: '\x27' :: rest => literalLines? (afterOpening rest)
  | '\x22' :: rest => basic? rest
  | '\x27' :: rest => literal? rest
  | _ => none

end Quoted

end ModelQuery.Sections
