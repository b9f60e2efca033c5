import ModelQuery.Sections.Quoted
import ModelQuery.Sections.Scalar

/-! Reading sections. Each reader returns what it has read and the rest of the text. Readers that
repeat count down `fuel`, which is set from the length of the text so that it does not run out. -/

namespace ModelQuery.Sections

def skipBlanks (cs : List Char) : List Char :=
  cs.dropWhile isBlank

/-- Takes one character that has to stand here. -/
def expect? (c : Char) : List Char → Option (List Char)
  | d :: rest => if d = c then some rest else none
  | [] => none

/-- Takes a line end, which the end of the text stands for too. -/
def lineEnd? : List Char → Option (List Char)
  | [] => some []
  | '\n' :: rest | '\r' :: '\n' :: rest => some rest
  | _ => none

/-- Takes the rest of a line, in which there may be a comment. -/
def lineRest? (cs : List Char) : Option (List Char) :=
  match skipBlanks cs with
  | '#' :: comment => lineEnd? (comment.dropWhile isPlain)
  | rest => lineEnd? rest

/-- Skips blanks, line ends and comments. -/
def skipGap? : Nat → List Char → Option (List Char)
  | 0, _ => none
  | fuel + 1, cs =>
    match skipBlanks cs with
    | [] => some []
    | c :: rest =>
      if c = '\n' ∨ c = '\r' ∨ c = '#' then (lineRest? (c :: rest)).bind (skipGap? fuel)
      else some (c :: rest)

/-! ### Names -/

def isNameLetter (c : Char) : Bool :=
  c.isAlphanum || c == '_' || c == '-'

/-- Reads one name, with or without quotes. -/
def name? (cs : List Char) : Option (String × List Char) :=
  match cs with
  | '\x22' :: rest => (Quoted.basic? rest).map fun (name, rest) => (String.ofList name, rest)
  | '\x27' :: rest => (Quoted.literal? rest).map fun (name, rest) => (String.ofList name, rest)
  | cs =>
    let (name, rest) := cs.span isNameLetter
    if name.isEmpty then none else some (String.ofList name, rest)

/-- Reads names with dots between them, and blanks around each. -/
def names? : Nat → List Char → Option (List String × List Char)
  | 0, _ => none
  | fuel + 1, cs => do
    let (name, rest) ← name? (skipBlanks cs)
    match skipBlanks rest with
    | '.' :: rest =>
      let (names, rest) ← names? fuel rest
      return (name :: names, rest)
    | rest => return ([name], rest)

/-- Nothing nests to this depth, neither values nor the names of a path. -/
def depthLimit : Nat := 80

/-- Reads a path: its last name, and the names before it. -/
def path? (cs : List Char) : Option (List String × String × List Char) := do
  let (names, rest) ← names? (depthLimit - 1) cs
  let name ← names.getLast?
  return (names.dropLast, name, rest)

/-! ### Values -/

/-- Whether a word without quotes ends before this character. -/
def endsWord (c : Char) : Bool :=
  isBlank c || c == '\n' || c == '\r' || c == ',' || c == ']' || c == '}' || c == '#'

/-- Takes a word without quotes; a blank between a date and a time belongs to it. -/
def word (cs : List Char) : List Char × List Char :=
  let (first, rest) := cs.span (!endsWord ·)
  match rest with
  | ' ' :: c :: more =>
    if isDate first && c.isDigit then
      let (second, rest) := (c :: more).span (!endsWord ·)
      (first ++ ' ' :: second, rest)
    else (first, rest)
  | rest => (first, rest)

mutual

/-- Reads a value that lies inside of fewer than `depth` others. -/
def value? : Nat → Nat → List Char → Option (Value × List Char)
  | 0, _, _ => none
  | fuel + 1, depth, cs => match cs with
    | '[' :: rest =>
      if depth ≤ 1 then none
      else do
        let (items, rest) ← items? fuel (depth - 1) (← skipGap? (rest.length + 1) rest)
        return (.list items, rest)
    | '{' :: rest =>
      if depth ≤ 1 then none
      else match skipBlanks rest with
        | '}' :: rest => some (.table .braced [], rest)
        | rest => do
          let (entries, rest) ← entries? fuel (depth - 1) [] rest
          return (.table .braced entries, rest)
    | c :: rest =>
      if c = quote ∨ c = apostrophe then
        (Quoted.text? (c :: rest)).map fun (text, rest) => (.text (String.ofList text), rest)
      else
        let (first, rest) := word (c :: rest)
        (scalar? first).map fun value => (value, rest)
    | [] => none

/-- Reads the values of a list and the bracket after them. -/
def items? : Nat → Nat → List Char → Option (List Value × List Char)
  | 0, _, _ => none
  | _ + 1, _, ']' :: rest => some ([], rest)
  | fuel + 1, depth, cs => do
    let (item, rest) ← value? fuel depth cs
    match ← skipGap? (rest.length + 1) rest with
    | ',' :: rest =>
      let (items, rest) ← items? fuel depth (← skipGap? (rest.length + 1) rest)
      return (item :: items, rest)
    | ']' :: rest => return ([item], rest)
    | _ => none

/-- Reads names with values and the brace after them. -/
def entries? : Nat → Nat → Entries → List Char → Option (Entries × List Char)
  | 0, _, _, _ => none
  | fuel + 1, depth, entries, cs => do
    let (path, name, rest) ← path? cs
    let (value, rest) ← value? fuel depth (skipBlanks (← expect? '=' rest))
    let entries ← entries.add? name value path
    match skipBlanks rest with
    | ',' :: rest => entries? fuel depth entries rest
    | '}' :: rest => return (entries, rest)
    | _ => none

end

/-! ### Lines -/

/-- Reads a name with its value into the table under the heading. -/
def entryLine? (heading : List String) (entries : Entries) (cs : List Char) :
    Option (Entries × List Char) := do
  let (path, name, rest) ← path? cs
  let (value, rest) ← value? (2 * rest.length + 2) depthLimit (skipBlanks (← expect? '=' rest))
  return (← entries.within? (Entries.add? name value path) heading, ← lineRest? rest)

/-- Reads line after line, each under the heading before it. -/
def lines? : Nat → List String → Entries → List Char → Option Entries
  | 0, _, _, _ => none
  | fuel + 1, heading, entries, cs =>
    match skipBlanks cs with
    | [] => some entries
    | '[' :: '[' :: rest => do
      let (path, name, rest) ← path? rest
      let rest ← lineRest? (← expect? ']' (← expect? ']' rest))
      lines? fuel (path ++ [name]) (← entries.openRow? path name) rest
    | '[' :: rest => do
      let (path, name, rest) ← path? rest
      let rest ← lineRest? (← expect? ']' rest)
      lines? fuel (path ++ [name]) (← entries.openTable? path name) rest
    | c :: rest =>
      if c = '\n' ∨ c = '\r' ∨ c = '#' then do
        lines? fuel heading entries (← lineRest? (c :: rest))
      else do
        let (entries, rest) ← entryLine? heading entries (c :: rest)
        lines? fuel heading entries rest

/-- Reads the whole of a text, which may begin with a byte order mark. -/
def ofText? (text : String) : Option Entries :=
  let cs := match text.toList with
    | '\ufeff' :: cs => cs
    | cs => cs
  lines? (cs.length + 1) [] [] cs

end ModelQuery.Sections
