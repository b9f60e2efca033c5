import ModelQuery.Proofs.Filter.Composing

/-! Trees written as filters. A group is put in parentheses, except for the outermost one if that
joins anything, and what is written is read back as the same tree. -/

namespace ModelQuery.Tree

/-- The trees that parentheses and markers can express: a group has children that are themselves
normal and joiners that say how, and a group of one child is a clause in parentheses. -/
inductive Normal : Tree → Prop
  | leaf {clause : Clause} (h : clause.IsPlain) : Normal (leaf clause)
  | single {clause : Clause} (h : clause.IsPlain) : Normal (group (leaf clause) [])
  | group {first : Tree} {rest : List (Joiner × Tree)} (hfirst : Normal first) (hne : rest ≠ [])
    (hjoined : ∀ part ∈ rest, part.1 ≠ .blank) (hrest : ∀ part ∈ rest, Normal part.2) :
    Normal (group first rest)

mutual

/-- A tree as a child of a group. -/
def part : Tree → List Char
  | leaf clause => clause.render.toList
  | empty => ['(', ')']
  | group first rest => '(' :: (first.part ++ joinedParts rest ++ [')'])

/-- Further children, each behind the marker that joins it. -/
def joinedParts : List (Joiner × Tree) → List Char
  | [] => []
  | (joiner, tree) :: rest =>
    '|' :: (joiner.word.toList ++ [';']) ++ (tree.part ++ joinedParts rest)

end

/-- A tree as a filter. A group of several children needs no parentheses around it. -/
def write : Tree → List Char
  | group first (second :: rest) => first.part ++ joinedParts (second :: rest)
  | tree => tree.part

theorem row_parts {first : Tree} (hfirst : IsTerm first.part first) (joiner : Joiner)
    {rest : List (Joiner × Tree)} (hjoined : ∀ part ∈ rest, part.1 ≠ .blank)
    (hrest : ∀ part ∈ rest, IsTerm part.2.part part.2) :
    Row joiner (first.part ++ joinedParts rest) ((joiner, first) :: rest) := by
  induction rest generalizing first joiner with
  | nil =>
    rw [joinedParts, List.append_nil]
    exact .one hfirst
  | cons second rest ih =>
    obtain ⟨next, tree⟩ := second
    rw [joinedParts]
    refine .more hfirst (Joiner.marks_word (hjoined (next, tree) (by simp))) ?_
    exact ih (hrest (next, tree) (by simp)) next (fun part hp => hjoined part (by simp [hp]))
      fun part hp => hrest part (by simp [hp])

theorem enclose_ofParts {first : Tree} {rest : List (Joiner × Tree)} (hne : rest ≠ []) :
    (ofParts ((.blank, first) :: rest)).enclose = group first rest := by
  obtain ⟨second, rest, rfl⟩ := List.exists_cons_of_ne_nil hne
  rfl

theorem Normal.isTerm_part {tree : Tree} (h : tree.Normal) : IsTerm tree.part tree := by
  induction h with
  | leaf h => exact h.isTerm_render
  | single h =>
    have hr : Row .blank _ [(.blank, Tree.leaf _)] := .one h.isTerm_render
    rw [part, joinedParts, List.append_nil]
    exact hr.isTerm_enclosed
  | group _ hne hjoined _ hfirst hrest =>
    have hr := (row_parts hfirst .blank hjoined hrest).isTerm_enclosed
    rwa [enclose_ofParts hne] at hr

/-- Reading inverts writing, whatever clauses and groups stand side by side. -/
theorem ofFilter_write {tree : Tree} (h : tree.Normal) : ofFilter tree.write = .ok tree := by
  cases h with
  | leaf h => exact ofFilter_row (.one h.isTerm_render)
  | single h => exact ofFilter_row (.one (Normal.single h).isTerm_part)
  | group hfirst hne hjoined hrest =>
    obtain ⟨second, rest, rfl⟩ := List.exists_cons_of_ne_nil hne
    exact ofFilter_row
      (row_parts hfirst.isTerm_part .blank hjoined fun part hp => (hrest part hp).isTerm_part)

/-- A clause whose fields are empty or joining words stands between a clause and a group. -/
theorem ofFilter_write_words : ∃ tree : Tree, tree.Normal ∧
    tree.write = "a|b|c|d|AND;|AND||or|OR;(e|f|g|h|AND;i|j|k|l)".toList ∧
      ofFilter tree.write = .ok tree := by
  have hleaf : ∀ {clause : Clause}, IsPlain clause.category ∧ IsPlain clause.property ∧
      IsPlain clause.operator ∧ IsPlain clause.value → (leaf clause).Normal :=
    fun ⟨hc, hp, ho, hv⟩ => .leaf ⟨hc, hp, ho, hv⟩
  have hnormal : (group (leaf ⟨"a", "b", "c", "d"⟩) [(.and, leaf ⟨"", "AND", "", "or"⟩),
      (.or, group (leaf ⟨"e", "f", "g", "h"⟩) [(.and, leaf ⟨"i", "j", "k", "l"⟩)])]).Normal := by
    refine .group (hleaf (by decide)) (by simp) (by decide) ?_
    simp only [List.forall_mem_cons, List.not_mem_nil, false_implies, implies_true, and_true]
    refine ⟨hleaf (by decide), .group (hleaf (by decide)) (by simp) (by decide) ?_⟩
    simpa using hleaf (by decide)
  exact ⟨_, hnormal, by decide, ofFilter_write hnormal⟩

end ModelQuery.Tree
