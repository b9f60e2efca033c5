import ModelQuery.Filter.Plan
import ModelQuery.Report.Style

/-! Trees as text, one line a node, with branches drawn in front of it. -/

namespace ModelQuery.Report

/-- A line and what hangs below it. -/
inductive Outline
  | node (line : String) (below : List Outline)
  deriving Repr, Inhabited

namespace Outline

/-- The branch to a node, the last of its siblings or not. -/
def branch (isLast : Bool) : String :=
  if isLast then "└─ " else "├─ "

/-- What continues the branch below the node. -/
def trunk (isLast : Bool) : String :=
  if isLast then "   " else "│  "

mutual

/-- A node with all that hangs below it, behind a margin. -/
def render (margin : String) (isLast : Bool) : Outline → String
  | node line below => margin ++ branch isLast ++ line ++ "\n" ++
    renderAll (margin ++ trunk isLast) below

/-- Siblings, one below the other. -/
def renderAll (margin : String) : List Outline → String
  | [] => ""
  | outline :: rest => outline.render margin rest.isEmpty ++ renderAll margin rest

end

end Outline

/-- The line for a group. -/
def groupLine : String := "group"

mutual

/-- The outline of a part of a filter, behind the joiner in front of it. -/
def ofTree (colors : Bool) (joiner : Joiner) : Tree → Outline
  | .leaf clause => .node (joinerMark colors joiner ++ clause.render) []
  | .empty => .node (joinerMark colors joiner ++ groupLine) []
  | .group first rest =>
    .node (joinerMark colors joiner ++ groupLine)
      (ofTree colors .blank first :: ofTrees colors rest)

def ofTrees (colors : Bool) : List (Joiner × Tree) → List Outline
  | [] => []
  | (joiner, tree) :: rest => ofTree colors joiner tree :: ofTrees colors rest

end

/-- The tree of a filter as text. The root has no branch of its own. -/
def treeText (colors : Bool) (tree : Tree) : String :=
  match ofTree colors .blank tree with
  | .node line below => line ++ "\n" ++ Outline.renderAll "" below

variable {P : Type}

mutual

/-- The outline of an entry of a plan. -/
def ofNode (colors : Bool) (render : P → String) (joiner : Joiner) : Plan.Node P → Outline
  | .predicate p => .node (joinerMark colors joiner ++ render p) []
  | .group entries =>
    .node (joinerMark colors joiner ++ groupLine) (ofEntries colors render entries)

def ofEntries (colors : Bool) (render : P → String) :
    List (Joiner × Plan.Node P) → List Outline
  | [] => []
  | (joiner, node) :: rest =>
    ofNode colors render joiner node :: ofEntries colors render rest

end

/-- A compiled filter as text. -/
def planText (colors : Bool) (render : P → String) (plan : Plan P) : String :=
  if plan.entries.isEmpty then "(empty)\n"
  else Outline.renderAll "" (ofEntries colors render plan.entries)

end ModelQuery.Report
