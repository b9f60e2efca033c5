import ModelQuery.Document.Writing
import ModelQuery.Sections.Quoted

/-! Writing sections. A text is written in the plainest form that needs no escapes: between double
quotes, between single ones, and then between three of either kind. Only a text that no form can
hold as it is has escapes. -/

namespace ModelQuery.Sections

/-- The four forms of a written text. -/
inductive Form
  | basic
  | literal
  | basicLines
  | literalLines
  deriving DecidableEq, Repr

namespace Form

def mark : Form → Char
  | basic | basicLines => quote
  | literal | literalLines => apostrophe

/-- Whether a form can go over several lines. -/
def isTripled : Form → Bool
  | basicLines | literalLines => true
  | basic | literal => false

def quotes (form : Form) : List Char :=
  if form.isTripled then [form.mark, form.mark, form.mark] else [form.mark]

end Form

/-- Whether a character can only be written with an escape, tabs and line ends aside. -/
def isControl (c : Char) : Bool :=
  (c < ' ' || c == '\x7f') && c != '\t' && c != '\n'

/-- The length of the longest run of a character, of which `run` were read just before. -/
def longestRun (c : Char) (run : Nat) : List Char → Nat
  | [] => run
  | d :: rest => if d = c then longestRun c (run + 1) rest else max run (longestRun c 0 rest)

/-- Whether a form holds a text without any escape. A form that is not tripled holds no line end
and none of its quotes, and a tripled one no three of its quotes in a row. -/
def Form.holds (form : Form) (cs : List Char) : Bool :=
  !cs.any isControl && (form.mark == apostrophe || !cs.contains '\\') &&
    if form.isTripled then longestRun form.mark 0 cs ≤ 2
    else !cs.contains '\n' && !cs.contains form.mark

/-- The form in which a text is written. -/
def formOf (cs : List Char) : Form :=
  if Form.basic.holds cs then .basic
  else if Form.literal.holds cs then .literal
  else if Form.basicLines.holds cs then .basicLines
  else if Form.literalLines.holds cs then .literalLines
  else if cs.contains '\n' then .basicLines
  else .basic

/-- The escape of a character that is never written as it is between double quotes. -/
def escape? (c : Char) : Option (List Char) :=
  if c = '\x08' then some ['\\', 'b']
  else if c = '\t' then some ['\\', 't']
  else if c = '\x0c' then some ['\\', 'f']
  else if c = '\r' then some ['\\', 'r']
  else if c = '\\' then some ['\\', '\\']
  else if isControl c then
    some ['\\', 'u', '0', '0', (Document.hexDigit (c.toNat / 16)).toUpper,
      (Document.hexDigit (c.toNat % 16)).toUpper]
  else none

/-- The text between double quotes. Between three of them line ends stay, and so do two quotes in
a row; `run` counts the quotes that were just written without an escape. -/
def escaped (tripled : Bool) (run : Nat) : List Char → List Char
  | [] => []
  | c :: rest =>
    if c = quote then
      if run < (if tripled then 2 else 0) then quote :: escaped tripled (run + 1) rest
      else '\\' :: quote :: escaped tripled 0 rest
    else if c = '\n' ∧ !tripled then '\\' :: 'n' :: escaped tripled 0 rest
    else (escape? c).getD [c] ++ escaped tripled 0 rest

/-- The written form of a text. The first line of several has a line of its own. -/
def quoted (cs : List Char) : List Char :=
  let form := formOf cs
  let gap := if form.isTripled && cs.contains '\n' then ['\n'] else []
  let body := if form.mark = quote then escaped form.isTripled 0 cs else cs
  form.quotes ++ gap ++ body ++ form.quotes

def quotedText (text : String) : String :=
  String.ofList (quoted text.toList)

/-- A line that gives a written value to a name. -/
def entryLine (name value : String) : String :=
  name ++ " = " ++ value ++ "\n"

/-- The line of a heading and the lines below it. -/
def table (name : String) (lines : List String) : String :=
  "[" ++ name ++ "]\n" ++ String.join lines

end ModelQuery.Sections
