import ModelQuery.Filter.Token
import ModelQuery.Report.Style

/-! The tokens of a filter as a table. -/

namespace ModelQuery.Report

/-- What a token is called in the table. -/
def tokenKind : Token → String
  | .clauses _ => "expression"
  | .joiner _ => "operator"
  | .opening => "open"
  | .closing => "close"
  | .finish => "end"

/-- Longer texts are shortened in the table. -/
def longestText : Nat := 60

def tokenRow (position kind text : String) : String :=
  column 5 position ++ " " ++ column 11 kind ++ " " ++ text

def tokenLine (placed : Placed) : String :=
  String.ofList (Text.trimEnd (tokenRow (toString placed.position) (tokenKind placed.token)
    (shorten longestText placed.token.text)).toList)

def tokensText (colors : Bool) (tokens : List Placed) : String :=
  styled colors [.dimmed] (tokenRow "Pos" "Kind" "Text") ++ "\n" ++
    String.join (tokens.map fun placed => tokenLine placed ++ "\n")

end ModelQuery.Report
