import ModelQuery.Filter.Clause
import ModelQuery.Filter.Fault

/-! The tree of a filter: clauses, and groups of parts with a joiner between any two neighbours. -/

namespace ModelQuery

/-- A group without children is `empty`; any other group has a first child, and each further child
comes with the joiner in front of it. -/
inductive Tree
  | leaf (clause : Clause)
  | empty
  | group (first : Tree) (rest : List (Joiner × Tree))
  deriving BEq, Repr, Inhabited

namespace Tree

/-- The tree of parts side by side: one part stands for itself and several form a group. What the
first part would be joined with has no left neighbour to join it to and is dropped. -/
def ofParts : List (Joiner × Tree) → Tree
  | [] => empty
  | [(_, part)] => part
  | (_, first) :: rest => group first rest

/-- The group of these children with these joiners between them. -/
def ofChildren : List Tree → List Joiner → Except Fault Tree
  | [], [] => .ok empty
  | first :: rest, joiners =>
    if joiners.length = rest.length then .ok (group first (joiners.zip rest))
    else .error (.joinerCount (rest.length + 1) joiners.length)
  | [], joiners => .error (.joinerCount 0 joiners.length)

/-- What a tree is inside parentheses: a clause becomes the only child of a group. -/
def enclose : Tree → Tree
  | leaf clause => group (leaf clause) []
  | tree => tree

def isLeaf : Tree → Bool
  | leaf _ => true
  | empty | group .. => false

def children : Tree → List Tree
  | leaf _ | empty => []
  | group first rest => first :: rest.map Prod.snd

def joiners : Tree → List Joiner
  | leaf _ | empty => []
  | group _ rest => rest.map Prod.fst

/-- The joiner in front of a child of a group: the first child, and what is no child, has none. -/
def joinerAt (tree : Tree) : Nat → Joiner
  | 0 => .blank
  | i + 1 => tree.joiners[i]?.getD .blank

mutual

/-- How many clauses there are. -/
def clauseCount : Tree → Nat
  | leaf _ => 1
  | empty => 0
  | group first rest => first.clauseCount + clauseCountAll rest

def clauseCountAll : List (Joiner × Tree) → Nat
  | [] => 0
  | (_, tree) :: rest => tree.clauseCount + clauseCountAll rest

end

mutual

/-- How many groups lie around the innermost clause. -/
def depth : Tree → Nat
  | leaf _ => 0
  | empty => 1
  | group first rest => 1 + max first.depth (depthAll rest)

def depthAll : List (Joiner × Tree) → Nat
  | [] => 0
  | (_, tree) :: rest => max tree.depth (depthAll rest)

end

end Tree

end ModelQuery
