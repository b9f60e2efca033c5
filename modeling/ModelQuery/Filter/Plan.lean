import ModelQuery.Filter.Tree

/-! What a filter compiles to: predicates and nested groups of them, each with the joiner that
binds it to its left neighbour. -/

namespace ModelQuery

namespace Plan

/-- One part of a plan. -/
inductive Node (P : Type)
  | predicate (predicate : P)
  | group (entries : List (Joiner × Node P))
  deriving BEq, Repr, Inhabited

end Plan

/-- A compiled filter over predicates of type `P`. -/
structure Plan (P : Type) where
  entries : List (Joiner × Plan.Node P)
  deriving BEq, Repr, Inhabited

namespace Plan

variable {P : Type}

namespace Node

mutual

/-- The predicates of a part, from left to right. -/
def predicates : Node P → List P
  | predicate p => [p]
  | group entries => predicatesAll entries

def predicatesAll : List (Joiner × Node P) → List P
  | [] => []
  | (_, node) :: rest => node.predicates ++ predicatesAll rest

end

mutual

/-- Whether a part holds, given which predicates do. A group is read from left to right without
precedence: `or` adds to what was found so far and every other joiner narrows it. -/
def holds (test : P → Bool) : Node P → Bool
  | predicate p => test p
  | group entries => holdsAll test entries

/-- Whether a group holds; a group without entries does not. -/
def holdsAll (test : P → Bool) : List (Joiner × Node P) → Bool
  | [] => false
  | (_, first) :: rest => joinAll test (first.holds test) rest

def joinAll (test : P → Bool) (found : Bool) : List (Joiner × Node P) → Bool
  | [] => found
  | (joiner, node) :: rest =>
    let here := node.holds test
    joinAll test (if joiner = .or then found || here else found && here) rest

end

def isPredicate : Node P → Bool
  | predicate _ => true
  | group _ => false

end Node

def predicates (plan : Plan P) : List P :=
  Node.predicatesAll plan.entries

def holds (test : P → Bool) (plan : Plan P) : Bool :=
  Node.holdsAll test plan.entries

/-- Whether no group lies inside the plan. -/
def isFlat (plan : Plan P) : Bool :=
  plan.entries.all fun (_, node) => node.isPredicate

/-- A predicate alone makes a plan of one entry. -/
def ofNode : Node P → Plan P
  | .predicate p => ⟨[(.blank, .predicate p)]⟩
  | .group entries => ⟨entries⟩

end Plan

namespace Tree

variable {P : Type}

mutual

/-- Resolves the clauses of a tree from left to right, and stops at the first clause that the
resolver refuses or the first group without children. -/
def toNode (resolve : Resolver P) : Tree → Except Fault (Plan.Node P)
  | leaf clause =>
    match resolve clause with
    | .ok p => .ok (.predicate p)
    | .error cause => .error (.unresolved clause cause)
  | empty => .error .emptyGroup
  | group first rest => do
    let head ← first.toNode resolve
    let tail ← toEntries resolve rest
    return .group ((.blank, head) :: tail)

def toEntries (resolve : Resolver P) :
    List (Joiner × Tree) → Except Fault (List (Joiner × Plan.Node P))
  | [] => .ok []
  | (joiner, tree) :: rest => do
    let node ← tree.toNode resolve
    let later ← toEntries resolve rest
    return (joiner, node) :: later

end

/-- The plan of a tree. -/
def plan (resolve : Resolver P) (tree : Tree) : Except Fault (Plan P) := do
  return .ofNode (← tree.toNode resolve)

end Tree

end ModelQuery
