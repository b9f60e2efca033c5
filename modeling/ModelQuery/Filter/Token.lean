import ModelQuery.Filter.Joiner

/-! The tokens of a filter: parentheses, the markers `|AND;` and `|OR;` between groups, and runs
of clause text. Positions count characters from the start of the filter. -/

namespace ModelQuery

inductive Token
  /-- One or more clauses with `;` between them, as written and trimmed. -/
  | clauses (text : String)
  /-- A marker between groups. -/
  | joiner (joiner : Joiner)
  | opening
  | closing
  /-- The end of the filter. -/
  | finish
  deriving DecidableEq, Repr, Inhabited

namespace Token

/-- The text of a token, a marker being named by its word. -/
def text : Token → String
  | clauses text => text
  | joiner j => j.word
  | opening => "("
  | closing => ")"
  | finish => ""

/-- What a token is called in a message. -/
def describe : Token → String
  | clauses text => "expression '" ++ text ++ "'"
  | joiner j => "operator " ++ j.word
  | opening => "'('"
  | closing => "')'"
  | finish => "end of input"

end Token

/-- A token with the position where it starts. -/
structure Placed where
  token : Token
  position : Nat
  deriving DecidableEq, Repr, Inhabited

end ModelQuery
