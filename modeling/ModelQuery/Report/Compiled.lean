import ModelQuery.Catalog.Predicate
import ModelQuery.Document.Writing
import ModelQuery.Filter.Compile
import ModelQuery.Report.Outline
import ModelQuery.Report.Tokens

/-! What the compiler made of a filter, as text and as a document. -/

namespace ModelQuery.Report

/-- Everything that is told about one filter. -/
structure Compiled (P : Type) where
  filter : String
  route : Route
  /-- The tokens, if they were asked for. -/
  tokens : Option (List Placed)
  /-- The tree, if it was asked for. -/
  tree : Option Tree
  plan : Plan P

variable {P : Type}

namespace Compiled

def text (colors : Bool) (render : P → String) (report : Compiled P) : String :=
  label colors "Filter:" ++ " " ++ report.filter ++ "\n" ++
    label colors "Path:" ++ " " ++ report.route.word ++ "\n" ++
    (match report.tokens with
      | some tokens => "\n" ++ label colors "Tokens:" ++ "\n" ++ tokensText colors tokens
      | none => "") ++
    (match report.tree with
      | some tree => "\n" ++ label colors "Syntax tree:" ++ "\n" ++ treeText colors tree
      | none => "") ++
    "\n" ++ label colors "Compiled:" ++ " " ++ toString report.plan.predicates.length ++
    " clause(s)\n" ++ planText colors render report.plan

end Compiled

/-- The word for a joiner in documents. -/
def joinerWord : Joiner → String
  | .blank => "EMPTY"
  | joiner => joiner.word

def tokenDocument (placed : Placed) : Document :=
  let token : List (String × Document) := match placed.token with
    | .clauses text => [("kind", .text "expression"), ("text", .text text)]
    | .joiner joiner => [("kind", .text "logical_operator"), ("text", .text (joinerWord joiner))]
    | .opening => [("kind", .text "open_paren")]
    | .closing => [("kind", .text "close_paren")]
    | .finish => [("kind", .text "end_of_input")]
  .object [("token", .object token), ("position", .integer placed.position)]

def clauseEntries (clause : Clause) : List (String × Document) :=
  [("category", .text clause.category), ("property", .text clause.property),
    ("operator", .text clause.operator), ("value", .text clause.value)]

mutual

def treeDocument : Tree → Document
  | .leaf clause => .object (("kind", .text "leaf") :: clauseEntries clause)
  | .empty => .object [("kind", .text "group"), ("children", .array []), ("operators", .array [])]
  | .group first rest =>
    .object [("kind", .text "group"),
      ("children", .array (treeDocument first :: treeDocuments rest)),
      ("operators", .array (rest.map fun (joiner, _) => .text (joinerWord joiner)))]

def treeDocuments : List (Joiner × Tree) → List Document
  | [] => []
  | (_, tree) :: rest => treeDocument tree :: treeDocuments rest

end

mutual

def nodeDocument (write : P → Document) : Plan.Node P → Document
  | .predicate p => .object [("predicate", write p)]
  | .group entries =>
    .object [("collection", .object [("entries", .array (entryDocuments write entries))])]

def entryDocuments (write : P → Document) : List (Joiner × Plan.Node P) → List Document
  | [] => []
  | (joiner, node) :: rest =>
    .object [("operator", .text (joinerWord joiner)), ("node", nodeDocument write node)] ::
      entryDocuments write rest

end

def planDocument (write : P → Document) (plan : Plan P) : Document :=
  .object [("entries", .array (entryDocuments write plan.entries))]

def operandDocument : Operand → Document
  | .text s => .text s
  | .number x => .real x
  | .integer n => .integer n.toInt
  | .boolean b => .boolean b

def clauseDocument (clause : Clause) : Document :=
  .object (clauseEntries clause)

def predicateDocument (predicate : Predicate) : Document :=
  .object [("category", .text predicate.category.name),
    ("property", .text predicate.property.name), ("operator", .text predicate.comparison.word),
    ("value", operandDocument predicate.operand)]

def Compiled.document (write : P → Document) (report : Compiled P) : Document :=
  .object ([("filter", .text report.filter), ("path", .text report.route.word)] ++
    (report.tokens.map fun tokens => ("tokens", .array (tokens.map tokenDocument))).toList ++
    (report.tree.map fun tree => ("ast", treeDocument tree)).toList ++
    [("compiled", planDocument write report.plan)])

end ModelQuery.Report
