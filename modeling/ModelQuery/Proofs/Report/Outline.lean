import ModelQuery.Proofs.Filter.WellFormed
import ModelQuery.Proofs.Text.Cutting
import ModelQuery.Report.Outline

/-! What a reader learns from an outline. Its text can be taken apart again: the branch in front of a
line tells how deep the line hangs and whether it is the last there. So a compiled filter is known
from its text, whatever its clauses look like, as long as they stay on their lines. -/

namespace ModelQuery

namespace Report

namespace Outline

/-- No line of the outline goes over several. -/
inductive Lined : Outline → Prop
  | node {line : String} {below : List Outline} (hline : '\n' ∉ line.toList)
      (hbelow : ∀ outline ∈ below, Lined outline) : Lined (node line below)

theorem toList_render (margin line : String) (isLast : Bool) (below : List Outline) :
    ((node line below).render margin isLast).toList = margin.toList ++ ((branch isLast).toList ++
      (line.toList ++ '\n' :: (renderAll (margin ++ trunk isLast) below).toList)) := by
  simp [render]

theorem toList_renderAll_cons (margin : String) (outline : Outline) (rest : List Outline) :
    (renderAll margin (outline :: rest)).toList =
      (outline.render margin rest.isEmpty).toList ++ (renderAll margin rest).toList := by
  rw [renderAll, String.toList_append]

/-- The first of siblings stands behind the margin and a branch. -/
theorem exists_renderAll_cons (margin : String) (outline : Outline) (rest : List Outline) :
    ∃ isLast more, (renderAll margin (outline :: rest)).toList =
      margin.toList ++ ((branch isLast).toList ++ more) := by
  obtain ⟨line, below⟩ := outline
  refine ⟨rest.isEmpty, line.toList ++ '\n' ::
    ((renderAll (margin ++ trunk rest.isEmpty) below).toList ++ (renderAll margin rest).toList), ?_⟩
  rw [toList_renderAll_cons, toList_render]
  simp only [List.append_assoc, List.cons_append]

theorem branch_inj {a b : Bool} {rest rest' : List Char}
    (h : (branch a).toList ++ rest = (branch b).toList ++ rest') : a = b ∧ rest = rest' := by
  cases a <;> cases b <;> simp_all [branch]

theorem trunk_ne_branch (a b : Bool) (rest rest' : List Char) :
    (trunk a).toList ++ rest ≠ (branch b).toList ++ rest' := by
  cases a <;> cases b <;> simp [trunk, branch]

/-- Nothing more stands behind a margin. -/
def Leaves (margin : String) (rest : List Char) : Prop :=
  ∀ more, rest = margin.toList ++ more → more = []

theorem Leaves.deeper {margin : String} {rest : List Char} (h : Leaves margin rest)
    (isLast : Bool) : Leaves (margin ++ trunk isLast) rest := by
  intro more he
  rw [String.toList_append, List.append_assoc] at he
  exact (List.append_eq_nil_iff.mp (h _ he)).2

/-- What hangs below a node ends where its next sibling begins. -/
theorem leaves_renderAll_append {margin : String} {rest : List Char} (h : Leaves margin rest)
    (isLast : Bool) (outlines : List Outline) :
    Leaves (margin ++ trunk isLast) ((renderAll margin outlines).toList ++ rest) := by
  cases outlines with
  | nil => exact h.deeper isLast
  | cons outline outlines =>
    obtain ⟨last, more, he⟩ := exists_renderAll_cons margin outline outlines
    intro below hbelow
    rw [he, String.toList_append, List.append_assoc, List.append_assoc, List.append_assoc,
      List.append_cancel_left_eq] at hbelow
    exact absurd hbelow.symm (trunk_ne_branch _ _ _ _)

mutual

/-- A node is told from the text that begins with it, and so is what follows. -/
theorem render_append_inj {margin : String} : ∀ {outline other : Outline} {isLast otherLast : Bool}
    {rest rest' : List Char}, outline.Lined → other.Lined →
    Leaves (margin ++ trunk isLast) rest → Leaves (margin ++ trunk otherLast) rest' →
    (outline.render margin isLast).toList ++ rest = (other.render margin otherLast).toList ++ rest' →
    outline = other ∧ rest = rest'
  | .node line below, .node line' below', isLast, otherLast, rest, rest', .node hline hbelow,
      .node hline' hbelow', hrest, hrest', h => by
    simp only [toList_render, List.append_assoc, List.append_cancel_left_eq] at h
    obtain ⟨rfl, hlines⟩ := branch_inj h
    obtain ⟨hl, hmore⟩ := Text.append_separator_inj hline hline' hlines
    obtain ⟨rfl, hr⟩ := renderAll_append_inj hbelow hbelow' hrest hrest' hmore
    exact ⟨by rw [String.toList_inj.mp hl], hr⟩

theorem renderAll_append_inj {margin : String} : ∀ {outlines others : List Outline}
    {rest rest' : List Char}, (∀ outline ∈ outlines, outline.Lined) →
    (∀ other ∈ others, other.Lined) → Leaves margin rest → Leaves margin rest' →
    (renderAll margin outlines).toList ++ rest = (renderAll margin others).toList ++ rest' →
    outlines = others ∧ rest = rest'
  | [], [], rest, rest', _, _, _, _, h => ⟨rfl, h⟩
  | [], other :: others, rest, rest', _, _, hrest, _, h => by
    obtain ⟨isLast, more, he⟩ := exists_renderAll_cons margin other others
    rw [he, List.append_assoc] at h
    exact absurd (hrest _ h) (by cases isLast <;> simp [branch])
  | outline :: outlines, [], rest, rest', _, _, _, hrest', h => by
    obtain ⟨isLast, more, he⟩ := exists_renderAll_cons margin outline outlines
    rw [he, List.append_assoc] at h
    exact absurd (hrest' _ h.symm) (by cases isLast <;> simp [branch])
  | outline :: outlines, other :: others, rest, rest', hlined, hlined', hrest, hrest', h => by
    obtain ⟨hfirst, hlater⟩ := List.forall_mem_cons.mp hlined
    obtain ⟨hfirst', hlater'⟩ := List.forall_mem_cons.mp hlined'
    rw [toList_renderAll_cons, toList_renderAll_cons, List.append_assoc, List.append_assoc] at h
    obtain ⟨rfl, hmore⟩ := render_append_inj hfirst hfirst'
      (leaves_renderAll_append hrest _ outlines) (leaves_renderAll_append hrest' _ others) h
    obtain ⟨rfl, hr⟩ := renderAll_append_inj hlater hlater' hrest hrest' hmore
    exact ⟨rfl, hr⟩

end

/-- Siblings without a margin are told from their text. -/
theorem renderAll_inj {outlines others : List Outline} (h : ∀ outline ∈ outlines, outline.Lined)
    (h' : ∀ other ∈ others, other.Lined) (he : renderAll "" outlines = renderAll "" others) :
    outlines = others := by
  have hleaves : Leaves "" [] := fun _ he => he.symm
  exact (renderAll_append_inj h h' hleaves hleaves (by rw [he])).1

end Outline

/-! ### Compiled filters -/

/-- Some predicates are told from what is shown of them, which stays on one line and is never the
line for a group. -/
structure Tells {P : Type} (render : P → String) (among : P → Prop) : Prop where
  lined : ∀ p, among p → '\n' ∉ (render p).toList
  apart : ∀ p, among p → render p ≠ groupLine
  inj : ∀ p q, among p → among q → render p = render q → p = q

/-- A joiner is told from its mark where it is known whether there is one. -/
theorem joinerMark_append_inj {joiner other : Joiner} {text text' : String}
    (hblank : joiner = .blank ↔ other = .blank)
    (h : joinerMark false joiner ++ text = joinerMark false other ++ text') :
    joiner = other ∧ text = text' := by
  have hne : ∀ text text', joinerMark false .and ++ text ≠ joinerMark false .or ++ text' := by
    intro text text' he
    have hlists := congrArg String.toList he
    simp [joinerMark, styled, Joiner.word] at hlists
  have hsame : joiner = other := by
    cases joiner <;> cases other <;> simp at hblank
    case and.or => exact absurd h (hne _ _)
    case or.and => exact absurd h.symm (hne _ _)
    all_goals rfl
  subst hsame
  exact ⟨rfl, (String.append_right_inj _).mp h⟩

theorem newline_notMem_joinerMark (joiner : Joiner) :
    '\n' ∉ (joinerMark false joiner).toList := by
  cases joiner <;> decide

variable {P : Type} {render : P → String} {among : P → Prop}

mutual

theorem lined_ofNode (h : Tells render among) (joiner : Joiner) : ∀ {node : Plan.Node P},
    (∀ p ∈ node.predicates, among p) → (ofNode false render joiner node).Lined
  | .predicate p, hp => by
    refine .node ?_ (by simp)
    rw [String.toList_append, List.mem_append]
    exact not_or.mpr ⟨newline_notMem_joinerMark joiner, h.lined p (hp p (by simp [Plan.Node.predicates]))⟩
  | .group entries, hp => by
    refine .node ?_ (lined_ofEntries h hp)
    rw [String.toList_append, List.mem_append]
    exact not_or.mpr ⟨newline_notMem_joinerMark joiner, by decide⟩

theorem lined_ofEntries (h : Tells render among) : ∀ {entries : List (Joiner × Plan.Node P)},
    (∀ p ∈ Plan.Node.predicatesAll entries, among p) →
    ∀ outline ∈ ofEntries false render entries, outline.Lined
  | [], _ => by simp [ofEntries]
  | (joiner, node) :: entries, hp => by
    simp only [Plan.Node.predicatesAll, List.mem_append] at hp
    rw [ofEntries, List.forall_mem_cons]
    exact ⟨lined_ofNode h joiner fun p hm => hp p (Or.inl hm),
      lined_ofEntries h fun p hm => hp p (Or.inr hm)⟩

end

mutual

theorem ofNode_inj (h : Tells render among) : ∀ {node other : Plan.Node P}
    {joiner otherJoiner : Joiner}, node.Regular → other.Regular →
    (∀ p ∈ node.predicates, among p) → (∀ q ∈ other.predicates, among q) →
    (joiner = .blank ↔ otherJoiner = .blank) →
    ofNode false render joiner node = ofNode false render otherJoiner other →
    joiner = otherJoiner ∧ node = other
  | .predicate p, .predicate q, _, _, _, _, hp, hq, hblank, he => by
    simp only [Plan.Node.predicates, List.mem_singleton, forall_eq] at hp hq
    obtain ⟨hj, ht⟩ := joinerMark_append_inj hblank (Outline.node.inj he).1
    exact ⟨hj, by rw [h.inj p q hp hq ht]⟩
  | .predicate p, .group _, _, _, _, _, hp, _, hblank, he => by
    simp only [Plan.Node.predicates, List.mem_singleton, forall_eq] at hp
    exact absurd (joinerMark_append_inj hblank (Outline.node.inj he).1).2 (h.apart p hp)
  | .group _, .predicate q, _, _, _, _, _, hq, hblank, he => by
    simp only [Plan.Node.predicates, List.mem_singleton, forall_eq] at hq
    exact absurd (joinerMark_append_inj hblank (Outline.node.inj he).1).2.symm (h.apart q hq)
  | .group _, .group _, _, _, .group hfirst hjoined hrest, .group hfirst' hjoined' hrest', hp, hq,
      hblank, he => by
    obtain ⟨hline, hbelow⟩ := Outline.node.inj he
    obtain ⟨hhead, htail⟩ := List.cons.inj hbelow
    simp only [Plan.Node.predicates, Plan.Node.predicatesAll, List.mem_append] at hp hq
    -- Only the first entry has no joiner, so each mark is looked for where one is.
    obtain ⟨-, hfirsts⟩ := ofNode_inj h hfirst hfirst' (fun p hm => hp p (Or.inl hm))
      (fun q hm => hq q (Or.inl hm)) Iff.rfl hhead
    have hrests := ofEntries_inj h hrest hrest' hjoined hjoined' (fun p hm => hp p (Or.inr hm))
      (fun q hm => hq q (Or.inr hm)) htail
    exact ⟨(joinerMark_append_inj hblank hline).1, by rw [hfirsts, hrests]⟩

theorem ofEntries_inj (h : Tells render among) : ∀ {entries others : List (Joiner × Plan.Node P)},
    (∀ entry ∈ entries, entry.2.Regular) → (∀ entry ∈ others, entry.2.Regular) →
    (∀ entry ∈ entries, entry.1 ≠ .blank) → (∀ entry ∈ others, entry.1 ≠ .blank) →
    (∀ p ∈ Plan.Node.predicatesAll entries, among p) →
    (∀ q ∈ Plan.Node.predicatesAll others, among q) →
    ofEntries false render entries = ofEntries false render others → entries = others
  | [], [], _, _, _, _, _, _, _ => rfl
  | [], (_, _) :: _, _, _, _, _, _, _, he => nomatch he
  | (_, _) :: _, [], _, _, _, _, _, _, he => nomatch he
  | (joiner, node) :: entries, (otherJoiner, other) :: others, hregular, hregular', hjoined,
      hjoined', hp, hq, he => by
    rw [List.forall_mem_cons] at hregular hregular' hjoined hjoined'
    obtain ⟨hhead, htail⟩ := List.cons.inj he
    simp only [Plan.Node.predicatesAll, List.mem_append] at hp hq
    obtain ⟨rfl, rfl⟩ := ofNode_inj h hregular.1 hregular'.1 (fun p hm => hp p (Or.inl hm))
      (fun q hm => hq q (Or.inl hm)) (iff_of_false hjoined.1 hjoined'.1) hhead
    rw [ofEntries_inj h hregular.2 hregular'.2 hjoined.2 hjoined'.2 (fun p hm => hp p (Or.inr hm))
      (fun q hm => hq q (Or.inr hm)) htail]

end

theorem planText_of_isRegular {plan : Plan P} (h : plan.IsRegular) :
    planText false render plan = Outline.renderAll "" (ofEntries false render plan.entries) := by
  rw [planText]
  obtain ⟨entries⟩ := plan
  cases h
  rfl

/-- A compiled filter is told from its text if its predicates are. -/
theorem planText_inj (h : Tells render among) {plan other : Plan P} (hr : plan.IsRegular)
    (hr' : other.IsRegular) (hp : ∀ p ∈ plan.predicates, among p)
    (hq : ∀ q ∈ other.predicates, among q)
    (he : planText false render plan = planText false render other) : plan = other := by
  rw [planText_of_isRegular hr, planText_of_isRegular hr'] at he
  have hentries := Outline.renderAll_inj (lined_ofEntries h hp) (lined_ofEntries h hq) he
  have hgroups : ofNode false render .blank (.group plan.entries) =
      ofNode false render .blank (.group other.entries) := congrArg (Outline.node _) hentries
  obtain ⟨-, hnodes⟩ := ofNode_inj h hr hr' hp hq Iff.rfl hgroups
  exact congrArg Plan.mk (Plan.Node.group.inj hnodes)

end Report

namespace Clause

/-- No field holds a bar or a line break. -/
def IsLegible (clause : Clause) : Prop :=
  ∀ field ∈ [clause.category, clause.property, clause.operator, clause.value],
    '|' ∉ field.toList ∧ '\n' ∉ field.toList

instance (clause : Clause) : Decidable clause.IsLegible :=
  inferInstanceAs (Decidable (∀ field ∈ _, _))

end Clause

namespace Report

/-- A clause is told from its text: three bars part its fields, and the line for a group has none. -/
theorem tells_clause : Tells Clause.render Clause.IsLegible where
  lined clause h := by
    simp only [Clause.IsLegible, List.forall_mem_cons] at h
    simp [Clause.toList_render, h]
  apart clause _ he := by
    have hbar := congrArg (fun text => '|' ∈ text.toList) he
    simp [Clause.toList_render, groupLine] at hbar
  inj p q hp hq he := by
    simp only [Clause.IsLegible, List.forall_mem_cons] at hp hq
    have hlists := congrArg String.toList he
    rw [Clause.toList_render, Clause.toList_render] at hlists
    obtain ⟨hcategory, hlists⟩ := Text.append_separator_inj hp.1.1 hq.1.1 hlists
    obtain ⟨hproperty, hlists⟩ := Text.append_separator_inj hp.2.1.1 hq.2.1.1 hlists
    obtain ⟨hoperator, hvalue⟩ := Text.append_separator_inj hp.2.2.1.1 hq.2.2.1.1 hlists
    rw [String.toList_inj] at hcategory hproperty hoperator hvalue
    rw [Clause.mk.injEq]
    exact ⟨hcategory, hproperty, hoperator, hvalue⟩

/-- Compiled filters of legible clauses have the same text only if they are the same. -/
theorem planText_eq_iff {plan other : Plan Clause} (h : plan.IsRegular) (h' : other.IsRegular)
    (hlegible : ∀ clause ∈ plan.predicates, clause.IsLegible)
    (hlegible' : ∀ clause ∈ other.predicates, clause.IsLegible) :
    planText false Clause.render plan = planText false Clause.render other ↔ plan = other :=
  ⟨planText_inj tells_clause h h' hlegible hlegible', fun he => by rw [he]⟩

/-- A clause that looks like a branch with a group is not taken for one. -/
theorem planText_eq_iff_branch_like :
    let clause (category : String) : Plan.Node Clause := .predicate ⟨category, "", "", "AND group"⟩
    let plan : Plan Clause :=
      ⟨[(.blank, .group [(.blank, clause "a")]), (.or, clause "│  └─ AND b")]⟩
    let other : Plan Clause :=
      ⟨[(.blank, .group [(.blank, clause "a"), (.and, clause "b")]), (.or, clause "group")]⟩
    plan.IsRegular ∧ other.IsRegular ∧ (∀ clause ∈ plan.predicates, clause.IsLegible) ∧
      (∀ clause ∈ other.predicates, clause.IsLegible) ∧
      planText false Clause.render plan ≠ planText false Clause.render other := by
  intro clause plan other
  have hregular : plan.IsRegular :=
    .group (.group (.predicate _) (by simp) (by simp)) (by simp) (by simpa using .predicate _)
  have hregular' : other.IsRegular :=
    .group (.group (.predicate _) (by simp) (by simpa using .predicate _)) (by simp)
      (by simpa using .predicate _)
  have hlegible : ∀ clause ∈ plan.predicates, clause.IsLegible := by decide
  have hlegible' : ∀ clause ∈ other.predicates, clause.IsLegible := by decide
  refine ⟨hregular, hregular', hlegible, hlegible', ?_⟩
  rw [Ne, planText_eq_iff hregular hregular' hlegible hlegible']
  simp [plan, other]

end Report

end ModelQuery
