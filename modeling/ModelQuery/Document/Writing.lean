import ModelQuery.Document.Basic
import ModelQuery.Number.Layout

/-! Writing documents, on one line or with every entry on a line of its own. -/

namespace ModelQuery.Document

def hexDigit (n : Nat) : Char :=
  if n < 10 then Char.ofNat (48 + n) else Char.ofNat (87 + n)

/-- How a character is written between quotes. -/
def escaped (c : Char) : List Char :=
  let n := c.toNat
  if n = 0x22 then ['\\', c]
  else if n = 0x5C then ['\\', '\\']
  else if n = 0x08 then ['\\', 'b']
  else if n = 0x09 then ['\\', 't']
  else if n = 0x0A then ['\\', 'n']
  else if n = 0x0C then ['\\', 'f']
  else if n = 0x0D then ['\\', 'r']
  else if n < 0x20 then ['\\', 'u', '0', '0', hexDigit (n / 16), hexDigit (n % 16)]
  else [c]

def quoted (s : String) : String :=
  "\"" ++ String.ofList (s.toList.flatMap escaped) ++ "\""

/-- Writes what has no parts. A double that is no number is written as `null`. -/
def scalarText : Document → String
  | null | array _ | object _ | broken => "null"
  | boolean true => "true"
  | boolean false => "false"
  | integer n => toString n
  | real x => if x.isFinite then Layout.document.text x else "null"
  | text s => quoted s

mutual

/-- Writes a document on one line, without blanks. -/
def compact : Document → String
  | array items => "[" ++ ",".intercalate (compactItems items) ++ "]"
  | object entries => "\x7b" ++ ",".intercalate (compactEntries entries) ++ "\x7d"
  | scalar => scalar.scalarText

def compactItems : List Document → List String
  | [] => []
  | item :: items => item.compact :: compactItems items

def compactEntries : List (String × Document) → List String
  | [] => []
  | (name, value) :: entries => (quoted name ++ ":" ++ value.compact) :: compactEntries entries

end

/-- Puts the lines of an array or an object between its brackets. `margin` starts the lines around
it. -/
def block (opening closing margin : String) (lines : List String) : String :=
  if lines.isEmpty then opening ++ closing
  else opening ++ "\n" ++ ",\n".intercalate (lines.map ((margin ++ "  ") ++ ·)) ++ "\n" ++
    margin ++ closing

mutual

/-- Writes a document with an entry a line, two blanks deeper than what is around it. -/
def prettyAt (margin : String) : Document → String
  | array items => block "[" "]" margin (prettyItems (margin ++ "  ") items)
  | object entries => block "\x7b" "\x7d" margin (prettyEntries (margin ++ "  ") entries)
  | scalar => scalar.scalarText

def prettyItems (margin : String) : List Document → List String
  | [] => []
  | item :: items => item.prettyAt margin :: prettyItems margin items

def prettyEntries (margin : String) : List (String × Document) → List String
  | [] => []
  | (name, value) :: entries =>
    (quoted name ++ ": " ++ value.prettyAt margin) :: prettyEntries margin entries

end

def pretty (document : Document) : String :=
  document.prettyAt ""

end ModelQuery.Document
