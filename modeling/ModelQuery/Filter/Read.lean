import ModelQuery.Filter.Scan
import ModelQuery.Filter.Tree
import ModelQuery.Text.Pieces

/-! Reading the tree of a filter from its tokens. Terms side by side are joined by markers, a term
is a run of clause text or a parenthesised filter, and only parentheses nest: the clauses of a run
are parts of the level that the run stands in. -/

namespace ModelQuery

namespace Clause

/-- The fields of a stretch of clause text: a blank stretch has none. -/
def fields (text : List Char) : List (List Char) :=
  if text.all Text.isBlank then [] else (Text.pieces '|' text).map Text.trim

/-- Reads one clause at a position, with the joiner for the clause behind it. The fifth field names
the joiner, and any further fields mean nothing. -/
def read (text : List Char) (position : Nat) : Except Fault (Clause × Joiner) :=
  match fields text with
  | category :: property :: operator :: value :: more =>
    .ok (⟨String.ofList category, String.ofList property, String.ofList operator,
      String.ofList value⟩, (more.head?.map Joiner.ofField).getD .and)
  | short => .error (.shortClause (String.ofList (Text.trim text)) position short.length)

/-- Reads clauses from the stretches of text between the semicolons, the first of which starts at
`position` and is joined by `joiner`. -/
def readAll (joiner : Joiner) (position : Nat) :
    List (List Char) → Except Fault (List (Joiner × Tree))
  | [] => .ok []
  | text :: rest => do
    let (clause, next) ← read text (position + Text.leadingBlanks text)
    let later ← readAll next (position + text.length + 1) rest
    return (joiner, .leaf clause) :: later

/-- The parts that a run of clause text at a position consists of. -/
def readRun (joiner : Joiner) (position : Nat) (text : List Char) :
    Except Fault (List (Joiner × Tree)) :=
  readAll joiner position (Text.pieces ';' text)

end Clause

namespace Tree

/-- What was read of one level: its parts, last first, and the joiner for the next part. -/
structure Level where
  parts : List (Joiner × Tree)
  next : Joiner

namespace Level

def start : Level := ⟨[], .blank⟩

def tree (level : Level) : Tree :=
  ofParts level.parts.reverse

/-- Adds the parts of a term. -/
def add (level : Level) (parts : List (Joiner × Tree)) : Level :=
  { level with parts := parts.reverse ++ level.parts }

/-- Adds a level that was read in parentheses. -/
def addEnclosed (level inner : Level) : Level :=
  level.add [(level.next, inner.tree.enclose)]

end Level

mutual

/-- Reads on where a term has to start. `outer` are the levels around this one, innermost first,
and `last` is where the tokens end. -/
def readTerm (last : Nat) (level : Level) (outer : List Level) :
    List Placed → Except Fault Tree
  | [] => .error (.unexpected .finish last)
  | ⟨.opening, _⟩ :: tokens => readTerm last .start (level :: outer) tokens
  | ⟨.clauses text, position⟩ :: tokens => do
    let parts ← Clause.readRun level.next position text.toList
    readJoin last (level.add parts) outer tokens
  | ⟨token, position⟩ :: _ => .error (.unexpected token position)

/-- Reads on where a term has just ended. -/
def readJoin (last : Nat) (level : Level) (outer : List Level) :
    List Placed → Except Fault Tree
  | ⟨.joiner joiner, _⟩ :: tokens => readTerm last { level with next := joiner } outer tokens
  | ⟨.closing, position⟩ :: tokens =>
    match outer with
    | around :: outer => readJoin last (around.addEnclosed level) outer tokens
    | [] => .error (.trailing .closing position)
  | ⟨token, position⟩ :: _ =>
    match outer, token with
    | [], .finish => .ok level.tree
    | [], _ => .error (.trailing token position)
    | _ :: _, _ => .error (.unexpected token position)
  | [] =>
    match outer with
    | [] => .ok level.tree
    | _ :: _ => .error (.unexpected .finish last)

end

/-- The tree that tokens spell. What follows the first `finish` is not read. -/
def ofTokens (tokens : List Placed) : Except Fault Tree :=
  readTerm ((tokens.getLast?.map Placed.position).getD 0) .start [] tokens

/-- The tree that a filter spells. -/
def ofFilter (filter : List Char) : Except Fault Tree := do
  ofTokens (← tokenize filter)

end Tree

end ModelQuery
