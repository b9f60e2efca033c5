import ModelQuery.Proofs.Filter.Composing
import ModelQuery.Proofs.Filter.Routes

/-! What filters put together from parts compile to. A part is compiled to one node wherever it
stands, and the plan of parts side by side is made of their nodes. -/

namespace ModelQuery

variable {P : Type} {resolve : Resolver P}

theorem compileFull_eq_ok_iff {filter : List Char} {plan : Plan P} :
    compileFull resolve filter = .ok plan ↔
      ∃ tree, Tree.Spells .term .start [] filter tree ∧ tree.plan resolve = .ok plan := by
  simp only [compileFull, bind_eq_ok_iff, Tree.ofFilter_eq_ok_iff]

/-- On whichever route, it is the scanner and the reader that decide. -/
theorem compile_eq_ok_iff {filter : List Char} {plan : Plan P} :
    compile resolve filter = .ok plan ↔ compileFull resolve filter = .ok plan := by
  by_cases hpar : filter.any Route.isParenthesis = true
  · simp [compile, Route.ofFilter, hpar, compileAlong]
  · have hnone := Route.no_parenthesis_iff.mpr (Bool.eq_false_iff.mpr hpar)
    simp only [compile, Route.ofFilter, if_neg hpar, compileAlong, compileFlat, compileFull,
      bind_eq_ok_iff, Tree.ofFlatFilter_eq_ok_iff hnone]

namespace Plan

/-- The plan of parts side by side. A part alone is not put into a group. -/
def ofEntries : List (Joiner × Node P) → Plan P
  | [] => ⟨[]⟩
  | [(_, node)] => ofNode node
  | (_, first) :: rest => ⟨(.blank, first) :: rest⟩

theorem holds_ofNode (test : P → Bool) (node : Node P) :
    (ofNode node).holds test = node.holds test := by
  cases node with
  | predicate p => simp [ofNode, holds, Node.holds, Node.holdsAll, Node.joinAll]
  | group entries => simp [ofNode, holds, Node.holds]

theorem holds_ofEntries (test : P → Bool) (entries : List (Joiner × Node P)) :
    (ofEntries entries).holds test = Node.holdsAll test entries := by
  rcases entries with _ | ⟨⟨joiner, node⟩, _ | ⟨second, rest⟩⟩
  · rfl
  · simp [ofEntries, holds_ofNode, Node.holdsAll, Node.joinAll]
  · simp [ofEntries, holds, Node.holdsAll]

end Plan

namespace Tree

/-- Parentheses around a filter make one group of its plan. -/
theorem toNode_enclose {tree : Tree} {plan : Plan P} (h : tree.plan resolve = .ok plan) :
    tree.enclose.toNode resolve = .ok (.group plan.entries) := by
  obtain ⟨node, hn, he⟩ := bind_eq_ok_iff.mp h
  obtain rfl : Plan.ofNode node = plan := Except.ok.inj he
  cases tree with
  | leaf clause =>
    simp only [toNode] at hn
    cases hc : resolve clause with
    | error cause => simp [hc] at hn
    | ok p =>
      simp only [hc, Except.ok.injEq] at hn
      subst hn
      simp [enclose, toNode, toEntries, hc, Plan.ofNode]
  | empty => cases hn
  | group first rest =>
    obtain ⟨head, hh, ht⟩ := bind_eq_ok_iff.mp hn
    obtain ⟨tail, htl, hg⟩ := bind_eq_ok_iff.mp ht
    cases hg
    simp [enclose, toNode, hh, htl, Plan.ofNode]

theorem plan_ofParts {parts : List (Joiner × Tree)} {entries : List (Joiner × Plan.Node P)}
    (hne : parts ≠ []) (h : toEntries resolve parts = .ok entries) :
    (ofParts parts).plan resolve = .ok (.ofEntries entries) := by
  obtain ⟨⟨joiner, first⟩, rest, rfl⟩ := List.exists_cons_of_ne_nil hne
  obtain ⟨head, hh, ht⟩ := bind_eq_ok_iff.mp h
  obtain ⟨tail, htl, he⟩ := bind_eq_ok_iff.mp ht
  cases he
  cases rest with
  | nil =>
    cases htl
    simp [ofParts, plan, hh, Plan.ofEntries]
  | cons second rest =>
    obtain ⟨node, hn, hl⟩ := bind_eq_ok_iff.mp htl
    obtain ⟨later, hlt, he⟩ := bind_eq_ok_iff.mp hl
    cases he
    simp [ofParts, plan, toNode, hh, htl, Plan.ofNode, Plan.ofEntries]

end Tree

/-- Wherever the text stands as a term, it is compiled to the node. -/
def IsPart (resolve : Resolver P) (text : List Char) (node : Plan.Node P) : Prop :=
  ∃ tree, Tree.IsTerm text tree ∧ tree.toNode resolve = .ok node

theorem isPart_enclosed {filter : List Char} {plan : Plan P}
    (h : compile resolve filter = .ok plan) :
    IsPart resolve ('(' :: (filter ++ [')'])) (.group plan.entries) := by
  obtain ⟨tree, hs, hp⟩ := compileFull_eq_ok_iff.mp (compile_eq_ok_iff.mp h)
  exact ⟨tree.enclose, Tree.isTerm_enclosed hs, Tree.toNode_enclose hp⟩

theorem Clause.IsPlain.isPart {clause : Clause} (h : clause.IsPlain) {p : P}
    (hp : resolve clause = .ok p) : IsPart resolve clause.render.toList (.predicate p) :=
  ⟨.leaf clause, h.isTerm_render, by simp [Tree.toNode, hp]⟩

/-- Parts with markers between them, the first of which is joined by `joiner`. -/
inductive Line (resolve : Resolver P) : Joiner → List Char → List (Joiner × Plan.Node P) → Prop
  | one {joiner text node} (h : IsPart resolve text node) :
    Line resolve joiner text [(joiner, node)]
  | more {joiner text node later entries} {next : Joiner} {mark : List Char}
    (h : IsPart resolve text node) (hm : next.Marks mark) (rest : Line resolve next later entries) :
    Line resolve joiner (text ++ (mark ++ later)) ((joiner, node) :: entries)

namespace Line

variable {joiner : Joiner} {text : List Char} {entries : List (Joiner × Plan.Node P)}

theorem exists_row (h : Line resolve joiner text entries) :
    ∃ parts, Tree.Row joiner text parts ∧ Tree.toEntries resolve parts = .ok entries := by
  induction h with
  | one h =>
    obtain ⟨tree, ht, hn⟩ := h
    exact ⟨_, .one ht, by simp [Tree.toEntries, hn]⟩
  | more h hm _ ih =>
    obtain ⟨tree, ht, hn⟩ := h
    obtain ⟨parts, hr, he⟩ := ih
    exact ⟨_, .more ht hm hr, by simp [Tree.toEntries, hn, he]⟩

theorem compile_eq_ok (h : Line resolve .blank text entries) :
    compile resolve text = .ok (.ofEntries entries) := by
  obtain ⟨parts, hr, he⟩ := h.exists_row
  have hne : parts ≠ [] := by
    cases hr <;> simp
  rw [compile_eq_ok_iff, compileFull_eq_ok_iff]
  exact ⟨_, hr.spells_filter, Tree.plan_ofParts hne he⟩

end Line

end ModelQuery
