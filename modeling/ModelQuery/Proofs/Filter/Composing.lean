import ModelQuery.Criteria.Filter
import ModelQuery.Proofs.Filter.Spelling

/-! Filters put together from parts. A clause, and any filter in parentheses, is a term that keeps
its tree wherever it stands; terms with markers between them are a row, and a row is again a
filter. -/

namespace ModelQuery

open Text

namespace Tree

/-- A level ends before this text. -/
def Ends (text : List Char) : Prop :=
  text = [] ∨ ∃ rest, text = ')' :: rest

theorem Ends.bounds {text : List Char} (h : Ends text) : Bounds text :=
  h.imp_right fun ⟨rest, he⟩ => Or.inl ⟨')', rest, he, rfl⟩

/-- As a term of any level the text stands for the tree, ahead of a marker and where the level
ends. -/
structure IsTerm (text : List Char) (tree : Tree) : Prop where
  ahead_of_mark : ∀ {level : Level} {outer : List Level} {joiner : Joiner} {mark rest : List Char}
    {whole : Tree}, joiner.Marks mark →
    Spells .term { level.add [(level.next, tree)] with next := joiner } outer rest whole →
    Spells .term level outer (text ++ (mark ++ rest)) whole
  at_end : ∀ {level : Level} {outer : List Level} {rest : List Char} {whole : Tree}, Ends rest →
    Spells .join (level.add [(level.next, tree)]) outer rest whole →
    Spells .term level outer (text ++ rest) whole

theorem Bounds.append_closing {text : List Char} (h : Bounds text) (rest : List Char) :
    Bounds (text ++ ')' :: rest) := by
  rcases h with rfl | ⟨c, more, rfl, hp⟩ | ⟨joiner, mark, more, hm, rfl, hg⟩
  · exact Or.inr (Or.inl ⟨')', rest, rfl, rfl⟩)
  · exact Or.inr (Or.inl ⟨c, _, rfl, hp⟩)
  · exact Or.inr (Or.inr ⟨joiner, mark, more ++ ')' :: rest, hm, by simp,
      head?_trimStart_append hg _⟩)

/-- Inside further levels a filter is read as it is alone, and a parenthesis behind it gives its
tree to the level around. -/
theorem Spells.append_closing {turn : Turn} {inner level : Level} {within outer : List Level}
    {text rest : List Char} {tree whole : Tree} (h : Spells turn inner within text tree)
    (hr : Spells .join (level.add [(level.next, tree.enclose)]) outer rest whole) :
    Spells turn inner (within ++ level :: outer) (text ++ ')' :: rest) whole := by
  induction h with
  | blank hb _ ih => exact .blank hb (ih hr)
  | opening _ ih => exact .opening (ih hr)
  | closing _ ih => exact .closing (ih hr)
  | mark hm _ ih =>
    rw [List.append_assoc]
    exact .mark hm (ih hr)
  | run hrun hpar hb _ ih =>
    rw [List.append_assoc]
    exact .run hrun hpar (hb.append_closing rest) (ih hr)
  | finish => exact .closing hr

theorem isTerm_enclosed {text : List Char} {tree : Tree} (h : Spells .term .start [] text tree) :
    IsTerm ('(' :: (text ++ [')'])) tree.enclose where
  ahead_of_mark hm hr := by
    have hs := Spells.opening (h.append_closing (.mark hm hr))
    simpa using hs
  at_end _ hr := by
    have hs := Spells.opening (h.append_closing hr)
    simpa using hs

theorem isTerm_run {text : List Char} {clause : Clause}
    (h : ∀ joiner, Clause.IsRun joiner text [(joiner, .leaf clause)])
    (hpar : ∀ c ∈ text, Route.isParenthesis c = false)
    (hbars : (Clause.lastClause text).count '|' = 3) : IsTerm text (.leaf clause) where
  ahead_of_mark hm hr := Spells.run_mark (h _) hpar hbars hm hr
  at_end he hr := .run (h _) hpar he.bounds hr

/-- Terms with markers between them, the first of which is joined by `joiner`. -/
inductive Row : Joiner → List Char → List (Joiner × Tree) → Prop
  | one {joiner text tree} (h : IsTerm text tree) : Row joiner text [(joiner, tree)]
  | more {joiner text tree later parts} {next : Joiner} {mark : List Char} (h : IsTerm text tree)
    (hm : next.Marks mark) (rest : Row next later parts) :
    Row joiner (text ++ (mark ++ later)) ((joiner, tree) :: parts)

theorem Row.spells {level : Level} {outer : List Level} {text rest : List Char}
    {parts : List (Joiner × Tree)} {whole : Tree} (h : Row level.next text parts) (he : Ends rest)
    (hr : Spells .join (level.add parts) outer rest whole) :
    Spells .term level outer (text ++ rest) whole := by
  generalize hj : level.next = joiner at h
  induction h generalizing level with
  | one ht =>
    subst hj
    exact ht.at_end he hr
  | more ht hm _ ih =>
    subst hj
    rw [List.append_assoc, List.append_assoc]
    refine ht.ahead_of_mark hm (ih (hr.join_congr ?_) rfl)
    simp [Level.add]

theorem Row.spells_filter {text : List Char} {parts : List (Joiner × Tree)}
    (h : Row .blank text parts) : Spells .term .start [] text (ofParts parts) := by
  have hs := @Row.spells .start [] text [] parts _ h (Or.inl rfl) .finish
  simpa [Level.tree, Level.add, Level.start] using hs

theorem ofFilter_row {text : List Char} {parts : List (Joiner × Tree)}
    (h : Row .blank text parts) : ofFilter text = .ok (ofParts parts) :=
  ofFilter_eq_ok_iff.mpr h.spells_filter

theorem Row.isTerm_enclosed {text : List Char} {parts : List (Joiner × Tree)}
    (h : Row .blank text parts) : IsTerm ('(' :: (text ++ [')'])) (ofParts parts).enclose :=
  Tree.isTerm_enclosed h.spells_filter

end Tree

/-- A field that a filter can hold as it is. -/
def IsPlain (field : String) : Prop :=
  trim field.toList = field.toList ∧ ∀ c ∈ field.toList, Criteria.isReserved c = false

instance (field : String) : Decidable (IsPlain field) :=
  decidable_of_iff (trim field.toList = field.toList ∧
    field.toList.any Criteria.isReserved = false) (by simp [IsPlain])

namespace Clause

structure IsPlain (clause : Clause) : Prop where
  category : ModelQuery.IsPlain clause.category
  property : ModelQuery.IsPlain clause.property
  operator : ModelQuery.IsPlain clause.operator
  value : ModelQuery.IsPlain clause.value

theorem toList_render (clause : Clause) : clause.render.toList =
    clause.category.toList ++ '|' :: (clause.property.toList ++
      '|' :: (clause.operator.toList ++ '|' :: clause.value.toList)) := by
  simp [render, String.toList_append]

namespace IsPlain

variable {clause : Clause}

theorem not_mem_render (h : clause.IsPlain) {c : Char} (hc : Criteria.isReserved c = true)
    (hbar : c ≠ '|') : c ∉ clause.render.toList := by
  have hfield : ∀ {field : String}, ModelQuery.IsPlain field → c ∉ field.toList := by
    intro field hf hm
    simp [hf.2 c hm] at hc
  simp [toList_render, hfield h.category, hfield h.property, hfield h.operator, hfield h.value,
    hbar]

theorem pieces_render (h : clause.IsPlain) : pieces '|' clause.render.toList =
    [clause.category.toList, clause.property.toList, clause.operator.toList,
      clause.value.toList] := by
  have hfield : ∀ {field : String}, ModelQuery.IsPlain field → '|' ∉ field.toList := by
    intro field hf hm
    exact absurd (hf.2 '|' hm) (by decide)
  rw [toList_render, pieces_cut (hfield h.category), pieces_cut (hfield h.property),
    pieces_cut (hfield h.operator), pieces_of_not_mem (hfield h.value)]

theorem read_render (h : clause.IsPlain) (position : Nat) :
    read clause.render.toList position = .ok (clause, .and) := by
  have hbar : '|' ∈ clause.render.toList := by simp [toList_render]
  have hf : fields clause.render.toList = [clause.category.toList, clause.property.toList,
      clause.operator.toList, clause.value.toList] := by
    rw [fields_of_mem_bar hbar, h.pieces_render]
    simp [h.category.1, h.property.1, h.operator.1, h.value.1]
  simp [read, hf]

theorem count_bar_render (h : clause.IsPlain) : clause.render.toList.count '|' = 3 := by
  have hlen := length_pieces '|' clause.render.toList
  rw [h.pieces_render] at hlen
  simpa using hlen.symm

/-- A plain clause is a term, wherever it stands. -/
theorem isTerm_render (h : clause.IsPlain) : Tree.IsTerm clause.render.toList (.leaf clause) := by
  have hsemi : ';' ∉ clause.render.toList := h.not_mem_render (by decide) (by decide)
  refine Tree.isTerm_run (fun joiner => ?_) (fun c hc => ?_) ?_
  · exact (isRun_whole_iff hsemi).mpr ⟨_, h.read_render, rfl⟩
  · refine Bool.eq_false_iff.mpr fun hp => ?_
    rcases Route.isParenthesis_iff.mp hp with rfl | rfl
    · exact h.not_mem_render (by decide) (by decide) hc
    · exact h.not_mem_render (by decide) (by decide) hc
  · rw [lastClause_whole hsemi, List.count_reverse, h.count_bar_render]

end IsPlain

end Clause

end ModelQuery
