import ModelQuery.Proofs.Filter.Balance
import ModelQuery.Proofs.Filter.Routes
import ModelQuery.Proofs.Filter.Rows
import ModelQuery.Proofs.Filter.Written

/-! What can be relied on in every tree that is read and in every plan that is made of one. Parts
are put side by side only with joiners between them, and so no plan has to be refused for its
shape. -/

namespace ModelQuery

open Text

namespace Clause

theorem mem_fields {text field : List Char} (h : field ∈ fields text) :
    ∃ piece ∈ pieces '|' text, field = trim piece := by
  unfold fields at h
  split at h
  · cases h
  · obtain ⟨piece, hp, rfl⟩ := List.mem_map.mp h
    exact ⟨piece, hp, rfl⟩

/-- Fields of a text in which only bars are left to mean something are plain. -/
theorem isPlain_of_mem_fields {text field : List Char} (hsemi : ';' ∉ text)
    (hpar : ∀ c ∈ text, Route.isParenthesis c = false) (h : field ∈ fields text) :
    ModelQuery.IsPlain (String.ofList field) := by
  obtain ⟨piece, hp, rfl⟩ := mem_fields h
  refine ⟨by simp, fun c hc => ?_⟩
  rw [String.toList_ofList] at hc
  obtain ⟨hm, hbar⟩ := mem_of_mem_pieces hp (mem_of_mem_trim hc)
  have hnot : c ≠ ';' := fun he => hsemi (he ▸ hm)
  have hc := hpar c hm
  simp only [Route.isParenthesis, Bool.or_eq_false_iff, beq_eq_false_iff_ne] at hc
  simp [Criteria.isReserved, hbar, hnot, hc]

theorem isPlain_of_read {text : List Char} {position : Nat} {found : Clause × Joiner}
    (hsemi : ';' ∉ text) (hpar : ∀ c ∈ text, Route.isParenthesis c = false)
    (h : read text position = .ok found) : found.1.IsPlain ∧ found.2 ≠ .blank := by
  unfold read at h
  split at h
  · next category property operator value more hf =>
    obtain rfl := Except.ok.inj h
    have hplain : ∀ field ∈ fields text, ModelQuery.IsPlain (String.ofList field) :=
      fun field hm => isPlain_of_mem_fields hsemi hpar hm
    simp only [hf, List.forall_mem_cons] at hplain
    obtain ⟨hc, hp, ho, hv, -⟩ := hplain
    refine ⟨⟨hc, hp, ho, hv⟩, ?_⟩
    cases more with
    | nil => simp
    | cons field more => exact Joiner.ofField_ne_blank field
  · cases h

end Clause

namespace Tree

/-- Parts that may stand side by side: each is normal, and each but the first is joined. -/
structure Alongside (parts : List (Joiner × Tree)) : Prop where
  normal : ∀ part ∈ parts, part.2.Normal
  joined : ∀ part ∈ parts.tail, part.1 ≠ .blank

theorem Alongside.append {before after : List (Joiner × Tree)} (hb : Alongside before)
    (ha : Alongside after) (hj : before ≠ [] → ∀ part ∈ after.head?, part.1 ≠ .blank) :
    Alongside (before ++ after) where
  normal part hp := (List.mem_append.mp hp).elim (hb.normal part) (ha.normal part)
  joined part hp := by
    cases before with
    | nil => exact ha.joined part hp
    | cons first before =>
      rw [List.cons_append, List.tail_cons, List.mem_append] at hp
      rcases hp with hp | hp
      · exact hb.joined part hp
      · cases after with
        | nil => cases hp
        | cons next after =>
          rcases List.mem_cons.mp hp with rfl | hp
          · exact hj (List.cons_ne_nil _ _) _ rfl
          · exact ha.joined part hp

theorem Alongside.normal_ofParts {parts : List (Joiner × Tree)} (h : Alongside parts)
    (hne : parts ≠ []) : (ofParts parts).Normal := by
  obtain ⟨first, rest, rfl⟩ := List.exists_cons_of_ne_nil hne
  cases rest with
  | nil => exact h.normal first (by simp)
  | cons second rest =>
    exact .group (h.normal first (by simp)) (List.cons_ne_nil _ _) h.joined
      fun part hp => h.normal part (List.mem_cons_of_mem _ hp)

theorem Normal.enclose {tree : Tree} (h : tree.Normal) : tree.enclose.Normal := by
  cases h with
  | leaf h => exact .single h
  | single h => exact .single h
  | group hfirst hne hjoined hrest => exact .group hfirst hne hjoined hrest

/-- The clauses of a run may stand side by side, the first of them joined as the run is. -/
theorem alongside_run {joiner : Joiner} {text : List Char} {parts : List (Joiner × Tree)}
    (h : Clause.IsRun joiner text parts) (hpar : ∀ c ∈ text, Route.isParenthesis c = false) :
    Alongside parts ∧ ∀ part ∈ parts.head?, part.1 = joiner := by
  induction text using cut_induction ';' generalizing joiner parts with
  | whole piece hp =>
    obtain ⟨found, hf, rfl⟩ := (Clause.isRun_whole_iff hp).mp h
    have hplain := (Clause.isPlain_of_read hp hpar (hf 0)).1
    exact ⟨⟨by simpa using Normal.leaf hplain, by simp⟩, by simp⟩
  | cut piece rest hp ih =>
    obtain ⟨found, later, hf, hl, rfl⟩ := (Clause.isRun_cut_iff hp).mp h
    obtain ⟨hplain, hne⟩ :=
      Clause.isPlain_of_read hp (fun c hc => hpar c (by simp [hc])) (hf 0)
    obtain ⟨hlater, hhead⟩ := ih hl fun c hc => hpar c (by simp [hc])
    have hfirst : Alongside [(joiner, leaf found.1)] :=
      ⟨by simpa using Normal.leaf hplain, by simp⟩
    refine ⟨hfirst.append hlater fun _ part hm => ?_, by simp⟩
    rw [hhead part hm]
    exact hne

/-- What holds of a level in its turn: a term that is not its first has a joiner, and where a term
has ended there is a part. -/
def Level.Ready (level : Level) : Turn → Prop
  | .term => Alongside level.parts.reverse ∧ (level.parts ≠ [] → level.next ≠ .blank)
  | .join => Alongside level.parts.reverse ∧ level.parts ≠ []

theorem Level.ready_start : start.Ready .term :=
  ⟨⟨by simp [start], by simp [start]⟩, fun h => absurd rfl h⟩

theorem Level.Ready.add {level : Level} {parts : List (Joiner × Tree)} (h : level.Ready .term)
    (hp : Alongside parts) (hne : parts ≠ []) (hj : ∀ part ∈ parts.head?, part.1 = level.next) :
    (level.add parts).Ready .join := by
  have hr : (level.add parts).parts.reverse = level.parts.reverse ++ parts := by simp [Level.add]
  refine ⟨hr ▸ h.1.append hp fun hb part hm => ?_, by simp [Level.add, hne]⟩
  rw [hj part hm]
  exact h.2 (by simpa using hb)

theorem Level.Ready.normal_tree {level : Level} (h : level.Ready .join) : level.tree.Normal :=
  h.1.normal_ofParts (by simpa using h.2)

theorem Level.Ready.addEnclosed {level around : Level} (h : level.Ready .join)
    (ha : around.Ready .term) : (around.addEnclosed level).Ready .join :=
  ha.add ⟨by simpa using h.normal_tree.enclose, by simp⟩ (by simp) (by simp)

/-- Reading keeps every level ready, so that a normal tree is what it comes to. -/
theorem Spells.normal {turn : Turn} {level : Level} {outer : List Level} {text : List Char}
    {tree : Tree} (h : Spells turn level outer text tree) (hl : level.Ready turn)
    (ho : ∀ around ∈ outer, around.Ready .term) : tree.Normal := by
  induction h with
  | blank _ _ ih => exact ih hl ho
  | opening _ ih => exact ih Level.ready_start (List.forall_mem_cons.mpr ⟨hl, ho⟩)
  | closing _ ih =>
    obtain ⟨ha, ho⟩ := List.forall_mem_cons.mp ho
    exact ih (hl.addEnclosed ha) ho
  | mark hm _ ih => exact ih ⟨hl.1, fun _ => hm.ne_blank⟩ ho
  | run hrun hpar _ _ ih =>
    obtain ⟨hp, hj⟩ := alongside_run hrun hpar
    exact ih (hl.add hp hrun.leaves.1 hj) ho
  | finish => exact hl.normal_tree

theorem normal_of_ofFilter {filter : List Char} {tree : Tree} (h : ofFilter filter = .ok tree) :
    tree.Normal :=
  (ofFilter_eq_ok_iff.mp h).normal Level.ready_start (by simp)

/-- What is read clause by clause is read token by token too. -/
theorem ofFilter_of_ofFlatFilter {filter : List Char} {tree : Tree}
    (h : ofFlatFilter filter = .ok tree) : ofFilter filter = .ok tree := by
  refine (ofFlatFilter_eq_ok_iff ?_).mp h
  unfold ofFlatFilter at h
  split at h
  · cases h
  · split at h
    · cases h
    · next hnone => exact parenthesis?_eq_none_iff.mp hnone

theorem normal_of_ofFlatFilter {filter : List Char} {tree : Tree}
    (h : ofFlatFilter filter = .ok tree) : tree.Normal :=
  normal_of_ofFilter (ofFilter_of_ofFlatFilter h)

theorem stage_of_ofFilter {filter : List Char} {fault : Fault}
    (h : ofFilter filter = .error fault) : fault.stage ≠ .build := by
  cases ht : tokenize filter with
  | error scanned =>
    rw [ofFilter, ht] at h
    cases h
    simp [stage_of_tokenize ht]
  | ok tokens =>
    rw [ofFilter, ht, ok_bind] at h
    simp [stage_of_ofTokens h]

theorem stage_of_ofFlatFilter {filter : List Char} {fault : Fault}
    (h : ofFlatFilter filter = .error fault) : fault.stage ≠ .build := by
  unfold ofFlatFilter at h
  split at h
  · cases h
    decide
  · split at h
    · cases h
      simp [Fault.stage]
    · cases hr : Clause.readRun .blank 0 filter with
      | error short =>
        rw [hr] at h
        cases h
        simp [Clause.stage_of_readRun hr]
      | ok parts =>
        rw [hr] at h
        cases h

end Tree

variable {P : Type} {resolve : Resolver P}

/-- In every group the first entry joins nothing and each later one is joined. -/
inductive Plan.Node.Regular : Node P → Prop
  | predicate (p : P) : Regular (predicate p)
  | group {first : Node P} {rest : List (Joiner × Node P)} (hfirst : Regular first)
    (hjoined : ∀ entry ∈ rest, entry.1 ≠ .blank) (hrest : ∀ entry ∈ rest, Regular entry.2) :
    Regular (group ((.blank, first) :: rest))

/-- The entries of the plan are those of a regular group, and so there is one at least. -/
def Plan.IsRegular (plan : Plan P) : Prop :=
  (Node.group plan.entries).Regular

namespace Tree

theorem resolved_regular {first : Tree} {rest : List (Joiner × Tree)}
    (hfirst : Resolved Plan.Node.Regular (first.toNode resolve))
    (hjoined : ∀ part ∈ rest, part.1 ≠ .blank)
    (hrest : ∀ part ∈ rest, Resolved Plan.Node.Regular (part.2.toNode resolve)) :
    Resolved Plan.Node.Regular ((group first rest).toNode resolve) := by
  refine resolved_group hfirst hrest fun head tail hh hj ht => .group hh (fun entry hm => ?_) ht
  have hentry : entry.1 ∈ rest.map Prod.fst := hj ▸ List.mem_map_of_mem hm
  obtain ⟨part, hp, he⟩ := List.mem_map.mp hentry
  exact he ▸ hjoined part hp

theorem Normal.resolved {tree : Tree} (h : tree.Normal) :
    Resolved Plan.Node.Regular (tree.toNode resolve) := by
  induction h with
  | leaf => exact resolved_leaf .predicate _
  | single => exact resolved_regular (resolved_leaf .predicate _) (by simp) (by simp)
  | group _ _ hjoined _ hfirst hrest => exact resolved_regular hfirst hjoined hrest

theorem Normal.resolved_plan {tree : Tree} (h : tree.Normal) :
    Resolved Plan.IsRegular (tree.plan resolve) := by
  refine h.resolved.bind fun node hn => .ok ?_
  cases hn with
  | predicate p => exact .group (.predicate p) (by simp) (by simp)
  | group hfirst hjoined hrest => exact .group hfirst hjoined hrest

end Tree

/-- Along either route there is a regular plan, or the resolver refuses a clause, or the filter was
not read to its end. -/
theorem compileAlong_cases (resolve : Resolver P) (filter : List Char) (route : Route) :
    Resolved Plan.IsRegular (compileAlong resolve filter route) ∨
      ∃ fault, compileAlong resolve filter route = .error fault ∧ fault.stage ≠ .build := by
  cases route with
  | flat =>
    simp only [compileAlong, compileFlat]
    cases ht : Tree.ofFlatFilter filter with
    | error fault => exact Or.inr ⟨fault, rfl, Tree.stage_of_ofFlatFilter ht⟩
    | ok tree => exact Or.inl (Tree.normal_of_ofFlatFilter ht).resolved_plan
  | full =>
    simp only [compileAlong, compileFull]
    cases ht : Tree.ofFilter filter with
    | error fault => exact Or.inr ⟨fault, rfl, Tree.stage_of_ofFilter ht⟩
    | ok tree => exact Or.inl (Tree.normal_of_ofFilter ht).resolved_plan

namespace Tree

/-- What a part of a tree has to be: a clause of plain fields, or a group of children with a joiner
between any two, as the count of them confirms, and no group around a single group. -/
structure IsSound (part : Tree) : Prop where
  plain : ∀ clause, part = leaf clause → clause.IsPlain
  inhabited : part.isLeaf = false → part.children ≠ []
  counted : part.isLeaf = false → part.joiners.length + 1 = part.children.length
  checked : part.isLeaf = false → ofChildren part.children part.joiners = .ok part
  joined : ∀ joiner ∈ part.joiners, joiner ≠ .blank
  lone : ∀ child, part.children = [child] → child.isLeaf = true

/-- A group passes the count of its joiners when it is built again. -/
theorem ofChildren_children_joiners (first : Tree) (rest : List (Joiner × Tree)) :
    ofChildren (group first rest).children (group first rest).joiners = .ok (group first rest) := by
  simp [ofChildren, children, joiners, List.zip_map']

theorem Normal.isSound {tree : Tree} (h : tree.Normal) : tree.IsSound := by
  cases h with
  | leaf h =>
    refine ⟨fun clause he => ?_, by simp [isLeaf], by simp [isLeaf], by simp [isLeaf],
      by simp [joiners], by simp [children]⟩
    cases he
    exact h
  | single h =>
    exact ⟨by simp, by simp [children], by simp [joiners, children],
      fun _ => ofChildren_children_joiners _ _, by simp [joiners], by simp [children, isLeaf]⟩
  | group hfirst hne hjoined hrest =>
    refine ⟨by simp, by simp [children], by simp [joiners, children],
      fun _ => ofChildren_children_joiners _ _, fun joiner hj => ?_, ?_⟩
    · obtain ⟨part, hp, rfl⟩ := List.mem_map.mp hj
      exact hjoined part hp
    · intro child hc
      simp [children, hne] at hc

theorem Normal.within {part tree : Tree} (h : tree.Normal) (hp : part.Within tree) :
    part.Normal := by
  induction hp with
  | self => exact h
  | first _ ih =>
    cases h with
    | single h => exact ih (.leaf h)
    | group hfirst => exact ih hfirst
  | later hm _ ih =>
    cases h with
    | single => cases hm
    | group _ _ _ hrest => exact ih (hrest _ hm)

end Tree

/-- Whatever is read is sound in all its parts, and each group of it is the row of an expression of
its derivation, where children and joiners are kept apart and stay in step. Whatever is compiled is
regular. No filter is refused for the shape of its groups. -/
theorem compileAlong_wellFormed (filter : List Char) :
    (∀ tree, Tree.ofFilter filter = .ok tree →
      (∀ part : Tree, part.Within tree → part.IsSound) ∧
      ∃ (tokens : List Placed) (derivation : Grammar.Expression), tokenize filter = .ok tokens ∧
        derivation.tokens = Grammar.sentence tokens ∧ derivation.Builds tree) ∧
    ∀ (P : Type) (resolve : Resolver P) (route : Route),
      compileAlong resolve filter route ≠ .error .emptyGroup ∧
      (∀ children joiners,
        compileAlong resolve filter route ≠ .error (.joinerCount children joiners)) ∧
      ∀ plan, compileAlong resolve filter route = .ok plan → plan.IsRegular := by
  refine ⟨fun tree ht => ⟨fun part hp => ((Tree.normal_of_ofFilter ht).within hp).isSound,
    Grammar.exists_builds ht⟩, ?_⟩
  intro P resolve route
  rcases compileAlong_cases resolve filter route with
    (⟨plan, he, hr⟩ | ⟨clause, cause, he⟩) | ⟨fault, he, hs⟩
  · simp [he, hr]
  · simp [he]
  · rw [he]
    refine ⟨fun h => hs ?_, fun children joiners h => hs ?_, fun plan h => ?_⟩
    · cases h
      rfl
    · cases h
      rfl
    · cases h

end ModelQuery
