import ModelQuery.Filter.Plan
import ModelQuery.Proofs.Outcome

/-! A tree is planned as a whole or not at all. Of all its parts, taken from left to right and each
before what lies inside it, the first one with a fault of its own decides. If there is none, the plan
is the tree again with predicates in the place of clauses. -/

namespace ModelQuery

variable {α β P : Type} {resolve : Resolver P}

namespace Tree

mutual

/-- The parts of a tree from left to right, each before the parts inside it. -/
def preorder : Tree → List Tree
  | leaf clause => [leaf clause]
  | empty => [empty]
  | group first rest => group first rest :: (first.preorder ++ preorderAll rest)

def preorderAll : List (Joiner × Tree) → List Tree
  | [] => []
  | (_, tree) :: rest => tree.preorder ++ preorderAll rest

end

def clause? : Tree → Option Clause
  | leaf clause => some clause
  | empty | group .. => none

def clauses (tree : Tree) : List Clause :=
  tree.preorder.filterMap clause?

theorem clauses_group (first : Tree) (rest : List (Joiner × Tree)) :
    (group first rest).clauses = first.clauses ++ (preorderAll rest).filterMap clause? := by
  rw [clauses, preorder, List.filterMap_cons_none rfl, List.filterMap_append, clauses]

/-- What is wrong with a part whatever lies inside it. -/
def ownFault? (resolve : Resolver P) : Tree → Option Fault
  | leaf clause => match resolve clause with
    | .ok _ => none
    | .error cause => some (.unresolved clause cause)
  | part => if part.children.isEmpty then some .emptyGroup else none

/-- A node has the shape of a tree: a predicate is that of the clause in its place, and the entries
of a group are its children, each with the joiner in front of it. -/
inductive Mirrors (resolve : Resolver P) : Tree → Plan.Node P → Prop
  | predicate {clause : Clause} {p : P} (h : resolve clause = .ok p) :
    Mirrors resolve (leaf clause) (.predicate p)
  | group {tree : Tree} {entries : List (Joiner × Plan.Node P)} (hgroup : tree.isLeaf = false)
    (hlen : entries.length = tree.children.length)
    (hjoined : ∀ (i : Nat) (h : i < entries.length), entries[i].1 = tree.joinerAt i)
    (hchild : ∀ (i : Nat) (h : i < entries.length) (hc : i < tree.children.length),
      Mirrors resolve tree.children[i] entries[i].2) :
    Mirrors resolve tree (.group entries)

/-- If none of these parts has a fault of its own, there is a result and it is good; otherwise there
is the fault of the first part that has one. -/
inductive Leftmost (resolve : Resolver P) (parts : List Tree) (good : α → Prop) :
    Except Fault α → Prop
  | ok {result : α} (hparts : parts.findSome? (ownFault? resolve) = none) (h : good result) :
    Leftmost resolve parts good (.ok result)
  | error {fault : Fault} (hparts : parts.findSome? (ownFault? resolve) = some fault) :
    Leftmost resolve parts good (.error fault)

theorem Leftmost.nothing {good : α → Prop} {result : α} (h : good result) :
    Leftmost resolve [] good (.ok result) :=
  .ok rfl h

theorem Leftmost.bind {good : α → Prop} {good' : β → Prop} {before after : List Tree}
    {outcome : Except Fault α} {next : α → Except Fault β}
    (h : Leftmost resolve before good outcome)
    (hn : ∀ result, good result → Leftmost resolve after good' (next result)) :
    Leftmost resolve (before ++ after) good' (outcome >>= next) := by
  cases h with
  | error hbefore =>
    refine .error ?_
    rw [List.findSome?_append, hbefore, Option.some_or]
  | @ok result hbefore hgood =>
    have happend : (before ++ after).findSome? (ownFault? resolve) =
        after.findSome? (ownFault? resolve) := by
      rw [List.findSome?_append, hbefore, Option.none_or]
    have hnext := hn result hgood
    rw [ok_bind]
    generalize next result = last at hnext
    cases hnext with
    | ok hafter hgood => exact .ok (happend.trans hafter) hgood
    | error hafter => exact .error (happend.trans hafter)

theorem Leftmost.behind {good : α → Prop} {part : Tree} {parts : List Tree}
    {outcome : Except Fault α} (hpart : part.ownFault? resolve = none)
    (h : Leftmost resolve parts good outcome) : Leftmost resolve (part :: parts) good outcome := by
  cases h with
  | ok hparts hgood => exact .ok (by simpa [hpart] using hparts) hgood
  | error hparts => exact .error (by simpa [hpart] using hparts)

/-- What a tree should be planned to. -/
structure Planned (resolve : Resolver P) (tree : Tree) (node : Plan.Node P) : Prop where
  mirrors : tree.Mirrors resolve node
  predicates : node.predicates.map .ok = tree.clauses.map resolve

/-- What the children behind the first should be planned to. -/
structure PlannedAll (resolve : Resolver P) (parts : List (Joiner × Tree))
    (entries : List (Joiner × Plan.Node P)) : Prop where
  joiners : entries.map Prod.fst = parts.map Prod.fst
  mirrors : ∀ (i : Nat) (h : i < entries.length) (hp : i < parts.length),
    Mirrors resolve parts[i].2 entries[i].2
  predicates : (Plan.Node.predicatesAll entries).map .ok =
    ((preorderAll parts).filterMap clause?).map resolve

theorem PlannedAll.length_eq {parts : List (Joiner × Tree)} {entries : List (Joiner × Plan.Node P)}
    (h : PlannedAll resolve parts entries) : entries.length = parts.length := by
  simpa using congrArg List.length h.joiners

theorem PlannedAll.cons {tree : Tree} {node : Plan.Node P} {parts : List (Joiner × Tree)}
    {entries : List (Joiner × Plan.Node P)} (h : PlannedAll resolve parts entries)
    (joiner : Joiner) (hnode : Planned resolve tree node) :
    PlannedAll resolve ((joiner, tree) :: parts) ((joiner, node) :: entries) where
  joiners := by simp [h.joiners]
  mirrors i hi hp := by
    cases i with
    | zero => exact hnode.mirrors
    | succ i => exact h.mirrors i (Nat.lt_of_succ_lt_succ hi) (Nat.lt_of_succ_lt_succ hp)
  predicates := by
    simp [Plan.Node.predicatesAll, preorderAll, hnode.predicates, h.predicates, clauses]

theorem PlannedAll.group {first : Tree} {head : Plan.Node P} {rest : List (Joiner × Tree)}
    {tail : List (Joiner × Plan.Node P)} (h : PlannedAll resolve rest tail)
    (hhead : Planned resolve first head) :
    Planned resolve (.group first rest) (.group ((.blank, head) :: tail)) where
  mirrors := by
    refine .group rfl (by simp [children, h.length_eq]) (fun i hi => ?_) fun i hi hc => ?_
    · cases i with
      | zero => rfl
      | succ i =>
        have hlt : i < tail.length := Nat.lt_of_succ_lt_succ hi
        have hjoiner : (tail.map Prod.fst)[i]? = some tail[i].1 := by simp [hlt]
        rw [h.joiners] at hjoiner
        simp [joinerAt, Tree.joiners, hjoiner]
    · cases i with
      | zero => exact hhead.mirrors
      | succ i =>
        have hlt : i < tail.length := Nat.lt_of_succ_lt_succ hi
        simpa [children] using h.mirrors i hlt (h.length_eq ▸ hlt)
  predicates := by
    simp [Plan.Node.predicates, Plan.Node.predicatesAll, hhead.predicates, h.predicates,
      clauses_group]

mutual

theorem toNode_leftmost :
    ∀ tree : Tree, Leftmost resolve tree.preorder (Planned resolve tree) (tree.toNode resolve)
  | leaf clause => by
    simp only [toNode]
    cases hc : resolve clause with
    | ok p =>
      refine .ok (by simp [preorder, ownFault?, hc]) ⟨.predicate hc, ?_⟩
      simp [Plan.Node.predicates, clauses, preorder, clause?, hc]
    | error cause => exact .error (by simp [preorder, ownFault?, hc])
  | empty => .error rfl
  | group first rest => by
    -- The parts of the first child come before those of the others, and the group itself is sound.
    have hchildren := (toNode_leftmost first).bind fun head hhead =>
      (toEntries_leftmost rest).bind fun tail htail =>
        .nothing (htail.group hhead)
    rw [List.append_nil] at hchildren
    exact hchildren.behind rfl

theorem toEntries_leftmost :
    ∀ parts : List (Joiner × Tree),
      Leftmost resolve (preorderAll parts) (PlannedAll resolve parts) (toEntries resolve parts)
  | [] => .ok rfl ⟨rfl, by simp, rfl⟩
  | (joiner, tree) :: rest => by
    have hparts := (toNode_leftmost tree).bind fun node hnode =>
      (toEntries_leftmost rest).bind fun later hlater =>
        .nothing (hlater.cons joiner hnode)
    rwa [List.append_nil] at hparts

end

theorem Mirrors.ofNode {tree : Tree} {node : Plan.Node P} (h : tree.Mirrors resolve node) :
    tree.enclose.Mirrors resolve (.group (Plan.ofNode node).entries) := by
  cases h with
  | @predicate clause p hp =>
    have hone : ∀ i, i < [(Joiner.blank, Plan.Node.predicate p)].length → i = 0 := fun i hi =>
      Nat.lt_one_iff.mp hi
    refine .group rfl rfl (fun i hi => ?_) fun i hi _ => ?_
    · obtain rfl := hone i hi
      rfl
    · obtain rfl := hone i hi
      exact .predicate hp
  | group hgroup hlen hjoined hchild =>
    have henclose : tree.enclose = tree := by
      cases tree with
      | leaf clause => cases hgroup
      | empty | group first rest => rfl
    rw [henclose]
    exact .group hgroup hlen hjoined hchild

theorem predicates_ofNode (node : Plan.Node P) : (Plan.ofNode node).predicates = node.predicates := by
  cases node with
  | predicate p => rfl
  | group entries => rfl

/-- The first part with a fault of its own decides how planning fails, and without one there is a
plan. It has the shape of the tree, a clause alone having that of a group of one, and its predicates
are those of all clauses in their order. -/
theorem plan_leftmost (resolve : Resolver P) (tree : Tree) :
    (∀ fault, tree.plan resolve = .error fault ↔
      tree.preorder.findSome? (ownFault? resolve) = some fault) ∧
    ((∃ plan, tree.plan resolve = .ok plan) ↔
      ∀ part ∈ tree.preorder, part.ownFault? resolve = none) ∧
    ∀ plan, tree.plan resolve = .ok plan →
      tree.enclose.Mirrors resolve (.group plan.entries) ∧
      plan.predicates.map .ok = tree.clauses.map resolve := by
  have hnode := @toNode_leftmost P resolve tree
  simp only [← List.findSome?_eq_none_iff, plan]
  generalize tree.toNode resolve = outcome at hnode
  cases hnode with
  | error hparts => simp [hparts]
  | @ok node hparts hplanned =>
    refine ⟨by simp [hparts], by simp [hparts], fun plan hplan => ?_⟩
    obtain rfl := Except.ok.inj hplan
    rw [predicates_ofNode]
    exact ⟨hplanned.mirrors.ofNode, hplanned.predicates⟩

/-- A group without children that stands behind a clause without a meaning is not reached. -/
example (clause : Clause) (cause : Mismatch) :
    (group (leaf clause) [(.and, empty)]).plan (fun _ => .error cause : Resolver Unit) =
      .error (.unresolved clause cause) := rfl

end Tree

end ModelQuery
