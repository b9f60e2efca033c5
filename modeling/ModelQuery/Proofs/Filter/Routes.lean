import ModelQuery.Proofs.Filter.Planning
import ModelQuery.Proofs.Filter.Spelling

/-! Without parentheses a filter may be cut at its semicolons alone. Both routes accept the same
filters with the same plan, and a filter that neither can read is refused at the same place. -/

namespace ModelQuery

open Text

namespace Tree

/-- Two readings end alike: in the same tree, or both in a fault of reading, which lies at the same
place if the text was such that it has to. -/
inductive Concur (placed : Prop) : Except Fault Tree → Except Fault Tree → Prop
  | accepted (tree : Tree) : Concur placed (.ok tree) (.ok tree)
  | refused {a b : Fault} (ha : a.stage = .parse) (hb : b.stage = .parse)
    (hp : placed → a.position? = b.position?) : Concur placed (.error a) (.error b)

theorem Concur.mono {placed placed' : Prop} (hp : placed' → placed) {a b : Except Fault Tree}
    (h : Concur placed a b) : Concur placed' a b := by
  cases h with
  | accepted tree => exact .accepted tree
  | refused ha hb he => exact .refused ha hb fun h => he (hp h)

/-- The last token of a run may have lost blanks at its end. Then a fault that lies there is told at
another place, since the last clause is blank. -/
theorem concur_readRun_trim {text : List Char} (hhead : ∀ c ∈ text.head?, isBlank c = false)
    (level : Level) (position : Nat) :
    Concur (∀ c ∈ text.getLast?, isBlank c = false)
      ((fun parts => (level.add parts).tree) <$> Clause.readRun level.next position (trim text))
      ((fun parts => (level.add parts).tree) <$> Clause.readRun level.next position text) := by
  rcases Clause.readRun_cases level.next text with ⟨parts, hp⟩ | hf
  · have ht : Clause.IsRun level.next (trim text) parts := Clause.isRun_trim.mpr hp
    rw [hp, ht]
    exact .accepted _
  · rcases Clause.readRun_cases level.next (trim text) with ⟨parts, hp⟩ | ht
    · have hr : Clause.IsRun level.next text parts := Clause.isRun_trim.mp hp
      obtain ⟨short, place, count, he⟩ := hf position
      rw [hr] at he
      cases he
    · obtain ⟨short, place, count, he⟩ := hf position
      obtain ⟨short', place', count', he'⟩ := ht position
      rw [he, he', map_error, map_error]
      refine .refused rfl rfl fun hlast => ?_
      rw [trim_eq_self hhead hlast, he, Except.error.injEq] at he'
      rw [he']

/-- Scanned outside all parentheses, the text is read as one run would be. -/
def ReadsAsRun (level : Level) (position : Nat) (text : List Char) : Prop :=
  ∃ tokens, Scan.run ⟨0, .gap⟩ position text = .ok tokens ∧ ∀ last,
    Concur (∀ c ∈ text.getLast?, isBlank c = false) (readTerm last level [] tokens)
      ((fun parts => (level.add parts).tree) <$> Clause.readRun level.next position text)

namespace ReadsAsRun

variable {level : Level} {position : Nat} {text : List Char}

theorem cons_blank {c : Char} (hc : isBlank c = true) (h : ReadsAsRun level (position + 1) text) :
    ReadsAsRun level position (c :: text) := by
  obtain ⟨tokens, hr, ht⟩ := h
  refine ⟨tokens, by rw [Scan.run_blank hc, hr], fun last => ?_⟩
  rw [Clause.readRun_cons_blank hc]
  refine (ht last).mono fun hl d hd => hl d ?_
  rw [List.getLast?_cons, Option.mem_def.mp hd]
  rfl

/-- Neither reader takes a marker for a term. -/
theorem mark {joiner : Joiner} {mark : List Char} (hm : joiner.Marks mark)
    (h : ReadsAsRun level (position + mark.length) text) :
    ReadsAsRun level position (mark ++ text) := by
  obtain ⟨tokens, hr, -⟩ := h
  obtain ⟨short, hs⟩ := Clause.readRun_mark hm text level.next position
  refine ⟨_, by rw [Scan.run_mark hm, hr, map_ok], fun last => ?_⟩
  rw [hs, map_error]
  exact .refused rfl rfl fun _ => rfl

theorem whole (hx : Scan.Extent 0 text []) : ReadsAsRun level position text := by
  have htrim := concur_readRun_trim hx.head_not_blank level position
  have hscan := Scan.run_clauses hx position
  rw [List.append_nil] at hscan
  refine ⟨_, by rw [hscan]; rfl, fun last => ?_⟩
  rw [readTerm, String.toList_ofList]
  cases hr : Clause.readRun level.next position (trim text) with
  | error fault => simpa [hr] using htrim
  | ok parts => simpa [hr, readJoin] using htrim

/-- Clauses up to a marker are a token of their own, and what was read of them goes in front. -/
theorem append_mark {taken mark : List Char} {joiner : Joiner}
    (hx : Scan.Extent 0 taken (mark ++ text)) (hm : joiner.Marks mark)
    (hbars : (Clause.lastClause taken).count '|' = 3)
    (h : ∀ level, ReadsAsRun level (position + taken.length + mark.length) text) :
    ReadsAsRun level position (taken ++ (mark ++ text)) := by
  have hbar : '|' ∈ Clause.lastClause taken := List.count_pos_iff.mp (by omega)
  have htrim := Clause.readRun_trim hx.head_not_blank ⟨'|', hbar, by decide⟩
    level.next position
  cases hr : Clause.readRun level.next position taken with
  | error fault =>
    obtain ⟨tokens, hrun, -⟩ := h level
    refine ⟨_, by rw [Scan.run_clauses hx, Scan.run_mark hm, hrun]; rfl, fun last => ?_⟩
    rw [Clause.readRun_append_mark hbars hm, readTerm, String.toList_ofList, htrim, hr, error_bind,
      error_bind, map_error]
    have hs := Clause.stage_of_readRun hr
    exact .refused hs hs fun _ => rfl
  | ok parts =>
    obtain ⟨tokens, hrun, hc⟩ := h { level.add parts with next := joiner }
    refine ⟨_, by rw [Scan.run_clauses hx, Scan.run_mark hm, hrun]; rfl, fun last => ?_⟩
    rw [Clause.readRun_append_mark hbars hm, readTerm, String.toList_ofList, htrim, hr, ok_bind,
      ok_bind, readJoin]
    -- What a level would join its next term with is no part of its tree.
    have htree : ∀ outcome : Except Fault (List (Joiner × Tree)),
        (fun later => (({ level.add parts with next := joiner } : Level).add later).tree) <$>
          outcome = (fun found => (level.add found).tree) <$>
            (do let later ← outcome; return parts ++ later) := by
      intro outcome
      cases outcome <;> simp [Level.add, Level.tree]
    rw [← htree]
    refine (hc last).mono fun hl d hd => hl d ?_
    simp [List.getLast?_append, Option.mem_def.mp hd]

end ReadsAsRun

theorem readsAsRun {text : List Char} (hpar : ∀ c ∈ text, Route.isParenthesis c = false)
    (level : Level) (position : Nat) : ReadsAsRun level position text := by
  induction hn : text.length using Nat.strong_induction_on generalizing text level position with
  | _ n ih =>
    subst hn
    cases Scan.ahead 0 text with
    | nothing => exact ⟨_, rfl, fun _ => .refused rfl rfl fun _ => rfl⟩
    | blank hc => exact .cons_blank hc (ih _ (by simp) (fun d hd => hpar d (by simp [hd])) _ _ rfl)
    | opening => exact absurd (hpar '(' (by simp)) (by decide)
    | closing => exact absurd (hpar ')' (by simp)) (by decide)
    | mark hm =>
      have hlen := hm.length_pos
      exact .mark hm (ih _ (by simp only [List.length_append]; omega)
        (fun d hd => hpar d (by simp [hd])) _ _ rfl)
    | @clauses taken rest hx =>
      rcases hx.ends_cases with rfl | ⟨c, more, rfl, hp⟩ | ⟨joiner, mark, more, hm, rfl, he⟩
      · rw [List.append_nil]
        exact .whole hx
      · simp [hpar c (by simp)] at hp
      · have hbars : (Clause.lastClause taken).count '|' = 3 := by
          rcases he with hgroup | ⟨-, hbars⟩
          · exact absurd (hpar '(' (by simp [mem_of_head?_trimStart hgroup])) (by decide)
          · exact hbars
        have hlt : more.length < (taken ++ (mark ++ more)).length := by
          have hlen := hm.length_pos
          simp only [List.length_append]
          omega
        exact .append_mark hx hm hbars fun _ =>
          ih _ hlt (fun d hd => hpar d (by simp [hd])) _ _ rfl

theorem parenthesis?_eq_none_iff {position : Nat} {text : List Char} :
    Scan.parenthesis? position text = none ↔ ∀ c ∈ text, Route.isParenthesis c = false := by
  induction text generalizing position with
  | nil => simp [Scan.parenthesis?]
  | cons c text ih =>
    by_cases hopen : c = '('
    · subst c
      simp [Scan.parenthesis?, Route.isParenthesis]
    by_cases hclose : c = ')'
    · subst c
      simp [Scan.parenthesis?, Route.isParenthesis]
    · simp [Scan.parenthesis?, Route.isParenthesis, hopen, hclose, ih]

theorem ofFlatFilter_concur_ofFilter {filter : List Char}
    (hpar : ∀ c ∈ filter, Route.isParenthesis c = false) (hnot : filter.all isBlank = false) :
    Concur (∀ c ∈ filter.getLast?, isBlank c = false) (ofFilter filter) (ofFlatFilter filter) := by
  have hflat : ofFlatFilter filter =
      (fun parts => (Level.start.add parts).tree) <$> Clause.readRun .blank 0 filter := by
    simp only [ofFlatFilter, hnot, Bool.false_eq_true, if_false, parenthesis?_eq_none_iff.mpr hpar]
    cases Clause.readRun .blank 0 filter <;> simp [Level.start, Level.add, Level.tree]
  obtain ⟨tokens, hr, hc⟩ := readsAsRun hpar .start 0
  have hfull : ofFilter filter = ofTokens tokens := by
    simp only [ofFilter, tokenize, hnot, Bool.false_eq_true, if_false, hr, ok_bind]
  rw [hfull, hflat]
  exact hc _

/-- Without parentheses a filter has a tree on the one route if it has that tree on the other. -/
theorem ofFlatFilter_eq_ok_iff {filter : List Char}
    (hpar : ∀ c ∈ filter, Route.isParenthesis c = false) {tree : Tree} :
    ofFlatFilter filter = .ok tree ↔ ofFilter filter = .ok tree := by
  by_cases hb : filter.all isBlank = true
  · simp [ofFlatFilter, ofFilter, tokenize, hb]
  · have hc := ofFlatFilter_concur_ofFilter hpar (by simpa using hb)
    generalize ofFlatFilter filter = flat at hc ⊢
    generalize ofFilter filter = full at hc ⊢
    cases hc <;> simp

theorem ofFlatFilter_leaves {filter : List Char} {tree : Tree}
    (h : ofFlatFilter filter = .ok tree) :
    ∃ parts, tree = ofParts parts ∧ parts ≠ [] ∧
      ∀ part ∈ parts, ∃ clause, part.2 = .leaf clause := by
  unfold ofFlatFilter at h
  split at h
  · cases h
  · split at h
    · cases h
    · obtain ⟨parts, hr, he⟩ := bind_eq_ok_iff.mp h
      exact ⟨parts, (Except.ok.inj he).symm, (Clause.isRun_of_readRun hr).leaves⟩

variable {P : Type}

/-- Clauses side by side make a flat plan, unless the resolver refuses one of them. -/
theorem plan_leaves (resolve : Resolver P) {parts : List (Joiner × Tree)} (hne : parts ≠ [])
    (h : ∀ part ∈ parts, ∃ clause, part.2 = .leaf clause) :
    (∃ plan, (ofParts parts).plan resolve = .ok plan ∧ plan.isFlat = true) ∨
      ∃ clause cause, (ofParts parts).plan resolve = .error (.unresolved clause cause) := by
  have hall : ∀ part ∈ parts,
      Resolved (fun node => node.isPredicate = true) (part.2.toNode resolve) := by
    intro part hp
    obtain ⟨clause, hc⟩ := h part hp
    rw [hc]
    exact resolved_leaf (fun _ => rfl) clause
  obtain ⟨first, rest, rfl⟩ := List.exists_cons_of_ne_nil hne
  obtain ⟨hfirst, hrest⟩ := List.forall_mem_cons.mp hall
  have hnode : Resolved (fun node => (Plan.ofNode node).isFlat = true)
      ((ofParts (first :: rest)).toNode resolve) := by
    cases rest with
    | nil =>
      refine hfirst.imp_left fun ⟨node, he, hn⟩ => ⟨node, he, ?_⟩
      cases node with
      | predicate p => rfl
      | group entries => cases hn
    | cons second rest =>
      refine resolved_group hfirst hrest fun head tail hh _ ht => ?_
      simpa [Plan.ofNode, Plan.isFlat, hh] using fun joiner node hm => ht (joiner, node) hm
  exact hnode.bind fun node hn => .ok hn

end Tree

variable {P : Type}

/-- What the two routes have in common on a filter. -/
structure RoutesAgree (resolve : Resolver P) (filter : List Char) : Prop where
  accepted : ∀ plan, compileFlat resolve filter = .ok plan ↔ compileFull resolve filter = .ok plan
  flat : ∀ plan, compileFlat resolve filter = .ok plan → plan.isFlat = true
  blank : compileFlat resolve filter = .error .blank ↔ compileFull resolve filter = .error .blank
  unresolved : ∀ clause cause, compileFlat resolve filter = .error (.unresolved clause cause) ↔
    compileFull resolve filter = .error (.unresolved clause cause)
  /-- Nothing else happens but that both refuse to read the filter. -/
  refused : (∃ plan, compileFlat resolve filter = .ok plan) ∨
    compileFlat resolve filter = .error .blank ∨
    (∃ clause cause, compileFlat resolve filter = .error (.unresolved clause cause)) ∨
    ∃ flat full, compileFlat resolve filter = .error flat ∧
      compileFull resolve filter = .error full ∧ flat.stage = .parse ∧ full.stage = .parse ∧
      ((∀ c ∈ filter.getLast?, isBlank c = false) →
        ∃ position, flat.position? = some position ∧ full.position? = some position)

theorem Fault.position?_of_stage {fault : Fault} (h : fault.stage = .parse) :
    ∃ position, fault.position? = some position := by
  cases fault <;> first | exact ⟨_, rfl⟩ | cases h

theorem RoutesAgree.of_same {resolve : Resolver P} {filter : List Char}
    {outcome : Except Fault (Plan P)} (hflat : compileFlat resolve filter = outcome)
    (hfull : compileFull resolve filter = outcome)
    (h : (∃ plan, outcome = .ok plan ∧ plan.isFlat = true) ∨ outcome = .error .blank ∨
      ∃ clause cause, outcome = .error (.unresolved clause cause)) :
    RoutesAgree resolve filter where
  accepted plan := by rw [hflat, hfull]
  flat plan hp := by
    rcases h with ⟨plan', rfl, hf⟩ | rfl | ⟨clause, cause, rfl⟩
    · rw [hflat, Except.ok.injEq] at hp
      exact hp ▸ hf
    · rw [hflat] at hp
      cases hp
    · rw [hflat] at hp
      cases hp
  blank := by rw [hflat, hfull]
  unresolved clause cause := by rw [hflat, hfull]
  refused := by
    rw [hflat]
    rcases h with ⟨plan, hp, -⟩ | hb | hu
    · exact Or.inl ⟨plan, hp⟩
    · exact Or.inr (Or.inl hb)
    · exact Or.inr (Or.inr (Or.inl hu))

theorem RoutesAgree.of_refused {resolve : Resolver P} {filter : List Char} {flat full : Fault}
    (hflat : compileFlat resolve filter = .error flat)
    (hfull : compileFull resolve filter = .error full) (hs : flat.stage = .parse)
    (hs' : full.stage = .parse)
    (hp : (∀ c ∈ filter.getLast?, isBlank c = false) → full.position? = flat.position?) :
    RoutesAgree resolve filter where
  accepted plan := by simp [hflat, hfull]
  flat plan h := by simp [hflat] at h
  blank := by
    rw [hflat, hfull]
    constructor
    · rintro ⟨⟩
      cases hs
    · rintro ⟨⟩
      cases hs'
  unresolved clause cause := by
    rw [hflat, hfull]
    constructor
    · rintro ⟨⟩
      cases hs
    · rintro ⟨⟩
      cases hs'
  refused := by
    refine Or.inr (Or.inr (Or.inr ⟨flat, full, hflat, hfull, hs, hs', fun hlast => ?_⟩))
    obtain ⟨position, hpos⟩ := Fault.position?_of_stage hs
    exact ⟨position, hpos, by rw [hp hlast, hpos]⟩

theorem routes_agree (resolve : Resolver P) {filter : List Char}
    (hpar : ∀ c ∈ filter, Route.isParenthesis c = false) : RoutesAgree resolve filter := by
  by_cases hb : filter.all isBlank = true
  · refine @RoutesAgree.of_same _ _ _ (.error .blank) ?_ ?_ (Or.inr (Or.inl rfl))
    · simp [compileFlat, Tree.ofFlatFilter, hb]
    · simp [compileFull, Tree.ofFilter, tokenize, hb]
  · have hc := Tree.ofFlatFilter_concur_ofFilter hpar (by simpa using hb)
    cases hs : Tree.ofFlatFilter filter with
    | ok tree =>
      have hf := (Tree.ofFlatFilter_eq_ok_iff hpar).mp hs
      obtain ⟨parts, rfl, hne, hl⟩ := Tree.ofFlatFilter_leaves hs
      refine @RoutesAgree.of_same _ _ _ ((Tree.ofParts parts).plan resolve) ?_ ?_ ?_
      · simp only [compileFlat, hs, ok_bind]
      · simp only [compileFull, hf, ok_bind]
      · exact (Tree.plan_leaves resolve hne hl).imp_right Or.inr
    | error flat =>
      rw [hs] at hc
      generalize hf : Tree.ofFilter filter = full at hc
      cases hc with
      | refused ha hb hp =>
        refine .of_refused ?_ ?_ hb ha hp
        · simp only [compileFlat, hs, error_bind]
        · simp only [compileFull, hf, error_bind]

/-- Behind the first clause stands a marker too many. -/
theorem routes_agree_doubled_marker :
    (∀ c ∈ "a|b|c|d|or;|AND;e|f|g|h".toList, Route.isParenthesis c = false) ∧
      RoutesAgree Resolver.verbatim "a|b|c|d|or;|AND;e|f|g|h".toList :=
  ⟨Route.no_parenthesis_iff.mpr (by decide),
    routes_agree Resolver.verbatim (Route.no_parenthesis_iff.mpr (by decide))⟩

end ModelQuery
