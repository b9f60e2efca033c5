import ModelQuery.Proofs.Filter.Grammar

/-! Where the groups of a tree come from. The children of a group and the joiners between them are
the two lists that some expression of the derivation fills, the whole one or one in parentheses.
That there is one joiner fewer than there are children is a fact about these lists: a clause text
gives up its last joiner, and a marker brings its own. -/

namespace ModelQuery

namespace Tree

/-- The trees that a tree is made of, itself among them. -/
inductive Within : Tree → Tree → Prop
  | self {tree : Tree} : Within tree tree
  | first {part first : Tree} {rest : List (Joiner × Tree)} (h : Within part first) :
    Within part (group first rest)
  | later {part first : Tree} {rest : List (Joiner × Tree)} {child : Joiner × Tree}
    (hm : child ∈ rest) (h : Within part child.2) : Within part (group first rest)

theorem Within.enclose {part tree : Tree} (h : part.Within tree) : part.Within tree.enclose := by
  cases tree with
  | leaf clause => exact .first h
  | empty => exact h
  | group first rest => exact h

end Tree

namespace Grammar

/-- The expressions of a derivation: itself, its ends behind a marker, and what stands in
parentheses in one of these. -/
inductive Expression.Within : Expression → Expression → Prop
  | self {expression : Expression} : Within expression expression
  | alone {inner enclosed : Expression} (h : Within inner enclosed) :
    Within inner (.one (.enclosed enclosed))
  | first {inner enclosed rest : Expression} {joiner : Joiner} (h : Within inner enclosed) :
    Within inner (.joined (.enclosed enclosed) joiner rest)
  | later {inner rest : Expression} {term : Term} {joiner : Joiner} (h : Within inner rest) :
    Within inner (.joined term joiner rest)

theorem Expression.Within.complete {inner expression : Expression} (h : inner.Within expression)
    (hc : expression.Complete) : inner.Complete := by
  induction h with
  | self => exact hc
  | alone _ ih => exact ih hc
  | first _ ih => exact ih hc.1
  | later _ ih => exact ih hc.2

/-- The children of the group and the joiners between them are the two lists of an expression. -/
def Expression.Lists (expression : Expression) (group : Tree) : Prop :=
  ∃ inner : Expression, inner.Within expression ∧ inner.parts = .ok (group.children, group.joiners)

/-- The derivation determines the tree, and its lists are the rows of the groups in it. They are
filled apart, but everywhere a joiner stands between any two children. -/
structure Expression.Builds (derivation : Expression) (tree : Tree) : Prop where
  outcome : derivation.tree = .ok tree
  counted : ∀ inner : Expression, inner.Within derivation →
    ∃ parts, inner.parts = .ok parts ∧ InStep parts
  listed : ∀ part : Tree, part.Within tree → part.isLeaf = false → derivation.Lists part

/-- A group that comes of two lists in step has them as its row, unless it is within a child. -/
theorem InStep.eq_or_within {parts : List Tree × List Joiner} (h : InStep parts) {part : Tree}
    (hp : part.Within (Tree.ofParts (row .blank parts)).enclose) :
    (part.children, part.joiners) = parts ∨ ∃ child ∈ parts.1, part.Within child := by
  obtain ⟨children, joiners⟩ := parts
  cases children with
  | nil => cases h
  | cons first rest =>
    have hlen : joiners.length = rest.length := Nat.succ.inj h
    cases rest with
    | nil =>
      obtain rfl : joiners = [] := List.eq_nil_of_length_eq_zero hlen
      cases first with
      | leaf clause =>
        cases hp with
        | self => exact Or.inl rfl
        | first hp => exact Or.inr ⟨_, List.mem_cons_self, hp⟩
        | later hm => cases hm
      | empty => exact Or.inr ⟨_, List.mem_cons_self, hp⟩
      | group first rest => exact Or.inr ⟨_, List.mem_cons_self, hp⟩
    | cons second rest =>
      obtain ⟨joiner, joiners, rfl⟩ := List.exists_cons_of_length_eq_add_one hlen
      replace hp : part.Within (.group first ((joiner :: joiners).zip (second :: rest))) := hp
      cases hp with
      | self =>
        refine Or.inl (Prod.ext ?_ ?_)
        · simp only [Tree.children, List.map_snd_zip hlen.ge]
        · exact List.map_fst_zip hlen.le
      | first hp => exact Or.inr ⟨first, List.mem_cons_self, hp⟩
      | later hm hp => exact Or.inr ⟨_, List.mem_cons_of_mem _ (List.of_mem_zip hm).2, hp⟩

mutual

/-- The groups within the children of an expression have their rows listed. -/
theorem Expression.lists : ∀ expression : Expression, expression.Complete →
    ∀ {parts : List Tree × List Joiner}, expression.parts = .ok parts → ∀ {part child : Tree},
      child ∈ parts.1 → part.Within child → part.isLeaf = false → expression.Lists part
  | .one term, hc, parts, hp, part, child, hm, hw, hg => by
    obtain ⟨inner, rfl, found, hf, hl⟩ := term.lists hc hp hm hw hg
    exact ⟨found, .alone hf, hl⟩
  | .joined term joiner rest, hc, parts, hp, part, child, hm, hw, hg => by
    obtain ⟨before, hb, hp⟩ := bind_eq_ok_iff.mp hp
    obtain ⟨behind, hr, hp⟩ := bind_eq_ok_iff.mp hp
    obtain rfl := Except.ok.inj hp
    rcases List.mem_append.mp hm with hm | hm
    · obtain ⟨inner, rfl, found, hf, hl⟩ := term.lists hc.1 hb hm hw hg
      exact ⟨found, .first hf, hl⟩
    · obtain ⟨found, hf, hl⟩ := rest.lists hc.2 hr hm hw hg
      exact ⟨found, .later hf, hl⟩

theorem Term.lists : ∀ term : Term, term.Complete → ∀ {parts : List Tree × List Joiner},
    term.parts = .ok parts → ∀ {part child : Tree}, child ∈ parts.1 → part.Within child →
      part.isLeaf = false → ∃ inner : Expression, term = .enclosed inner ∧ inner.Lists part
  | .run text, hc, parts, hp, part, child, hm, hw, hg => by
    obtain rfl := Except.ok.inj hp
    obtain ⟨piece, -, rfl⟩ := List.mem_map.mp hm
    cases hw
    cases hg
  | .enclosed inner, hc, parts, hp, part, child, hm, hw, hg => by
    obtain ⟨row, hr, hs, -⟩ := inner.reads hc
    simp only [Term.parts, hr, ok_bind, hs.treeOf_eq .blank] at hp
    obtain rfl := Except.ok.inj hp
    obtain rfl := List.mem_singleton.mp hm
    refine ⟨inner, rfl, ?_⟩
    rcases hs.eq_or_within hw with he | ⟨child, hm, hw⟩
    · exact ⟨inner, .self, he ▸ hr⟩
    · exact inner.lists hc hr hm hw hg

end

theorem Expression.Complete.builds {derivation : Expression} {tree : Tree}
    (hc : derivation.Complete) (ht : derivation.tree = .ok tree) : derivation.Builds tree where
  outcome := ht
  counted inner hi := by
    obtain ⟨parts, hp, hs, -⟩ := inner.reads (hi.complete hc)
    exact ⟨parts, hp, hs⟩
  listed part hw hg := by
    obtain ⟨parts, hp, hs, -⟩ := derivation.reads hc
    simp only [Expression.tree, hp, ok_bind, hs.treeOf_eq .blank] at ht
    obtain rfl := Except.ok.inj ht
    rcases hs.eq_or_within hw.enclose with he | ⟨child, hm, hw⟩
    · exact ⟨derivation, .self, he ▸ hp⟩
    · exact derivation.lists hc hp hm hw hg

/-- Whatever is read is built by a derivation of the tokens of the filter. -/
theorem exists_builds {filter : List Char} {tree : Tree} (h : Tree.ofFilter filter = .ok tree) :
    ∃ (tokens : List Placed) (derivation : Expression), tokenize filter = .ok tokens ∧
      derivation.tokens = sentence tokens ∧ derivation.Builds tree := by
  obtain ⟨tokens, ht, hr⟩ := bind_eq_ok_iff.mp h
  obtain ⟨derivation, hd, hc⟩ := exists_expression hr
  obtain ⟨found, he, hf⟩ := derivation.ofTokens_eq hd hc
  obtain rfl := Except.ok.inj (hr.symm.trans hf)
  exact ⟨tokens, derivation, ht, hd, hc.builds he⟩

end Grammar

end ModelQuery
