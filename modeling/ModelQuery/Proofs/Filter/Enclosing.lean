import ModelQuery.Proofs.Filter.WellFormed

/-! A filter in parentheses. The scanner is inside parentheses then and takes markers for clause
text that it would stop at outside, and all the same nothing comes of it: the filter has the same
plan, or is refused for the same clause, or cannot be read either way. -/

namespace ModelQuery

open Text

namespace Tree

/-- What has no parenthesis in it does not reach up to the last one. -/
theorem append_eq_append_closing {taken rest text : List Char}
    (h : ∀ c ∈ taken, Route.isParenthesis c = false) (he : taken ++ rest = text ++ [')']) :
    ∃ more, text = taken ++ more ∧ rest = more ++ [')'] := by
  rcases List.append_eq_append_iff.mp he with ⟨more, rfl, rfl⟩ | ⟨more, rfl, hm⟩
  · exact ⟨more, rfl, rfl⟩
  · cases more with
    | nil => exact ⟨[], by simp, by simpa using hm.symm⟩
    | cons c more =>
      obtain ⟨rfl, -⟩ := List.cons.inj hm
      exact absurd (h ')' (by simp)) (by decide)

theorem Bounds.of_append_closing {text : List Char} (h : Bounds (text ++ [')'])) : Bounds text := by
  rcases h with hn | ⟨c, rest, he, hp⟩ | ⟨joiner, mark, rest, hm, he, hg⟩
  · simp at hn
  · cases text with
    | nil => exact Or.inl rfl
    | cons d text =>
      obtain ⟨rfl, -⟩ := List.cons.inj he
      exact Or.inr (Or.inl ⟨d, text, rfl, hp⟩)
  · obtain ⟨more, rfl, rfl⟩ := append_eq_append_closing hm.no_parenthesis he.symm
    refine Or.inr (Or.inr ⟨joiner, mark, more, hm, rfl, ?_⟩)
    by_cases hb : trimStart more = []
    · rw [trimStart_blank_append (trimStart_eq_nil_iff.mp hb)] at hg
      exact absurd hg (by decide)
    · obtain ⟨c, tail, hc⟩ := List.exists_cons_of_ne_nil hb
      have hhead : (trimStart more).head? = some c := by rw [hc, List.head?_cons]
      rwa [head?_trimStart_append hhead, ← hhead] at hg

/-- If the parentheses of a text pair up, then one behind it can only close what was open before,
and up to it the text spells a tree of its own. -/
theorem Spells.of_append_closing {turn : Turn} {inner level : Level} {within : List Level}
    {text : List Char} {whole : Tree} {position : Nat}
    (h : Spells turn inner (within ++ [level]) (text ++ [')']) whole)
    (hb : Scan.balance within.length position text = .ok 0) :
    ∃ tree, Spells turn inner within text tree := by
  generalize ho : within ++ [level] = outer at h
  generalize ht : text ++ [')'] = enclosed at h
  induction h generalizing within text position with
  | blank hc _ ih =>
    cases text with
    | nil =>
      obtain ⟨rfl, -⟩ := List.cons.inj ht
      exact absurd hc (by decide)
    | cons d text =>
      obtain ⟨rfl, hrest⟩ := List.cons.inj ht
      rw [Scan.balance_cons_other (Route.isParenthesis_of_isBlank hc)] at hb
      obtain ⟨tree, hs⟩ := ih hb ho hrest
      exact ⟨tree, .blank hc hs⟩
  | @opening inner _ _ _ _ ih =>
    cases text with
    | nil => cases ht
    | cons d text =>
      obtain ⟨rfl, hrest⟩ := List.cons.inj ht
      obtain ⟨tree, hs⟩ := @ih (inner :: within) text (position + 1) hb (congrArg _ ho) hrest
      exact ⟨tree, .opening hs⟩
  | closing rest ih =>
    cases text with
    | nil =>
      obtain rfl : within = [] := List.eq_nil_of_length_eq_zero (Except.ok.inj hb)
      exact ⟨_, .finish⟩
    | cons d text =>
      obtain ⟨rfl, hrest⟩ := List.cons.inj ht
      cases within with
      | nil => cases hb
      | cons around within =>
        obtain ⟨rfl, houter⟩ := List.cons.inj ho
        obtain ⟨tree, hs⟩ := @ih within text (position + 1) hb houter hrest
        exact ⟨tree, .closing hs⟩
  | mark hm _ ih =>
    obtain ⟨more, rfl, rfl⟩ := append_eq_append_closing hm.no_parenthesis ht.symm
    rw [Scan.balance_append hm.no_parenthesis] at hb
    obtain ⟨tree, hs⟩ := ih hb ho rfl
    exact ⟨tree, .mark hm hs⟩
  | run hrun hpar hbounds _ ih =>
    obtain ⟨more, rfl, rfl⟩ := append_eq_append_closing hpar ht.symm
    rw [Scan.balance_append hpar] at hb
    obtain ⟨tree, hs⟩ := ih hb ho rfl
    exact ⟨tree, .run hrun hpar hbounds.of_append_closing hs⟩
  | finish => simp at ht

/-- A filter whose parentheses pair up has a tree in parentheses only if it has one without. -/
theorem exists_spells_enclosed_iff {filter : List Char} (hb : Scan.balance 0 0 filter = .ok 0) :
    (∃ tree, Spells .term .start [] ('(' :: (filter ++ [')'])) tree) ↔
      ∃ tree, Spells .term .start [] filter tree := by
  constructor
  · rintro ⟨whole, h⟩
    rcases h.term_cases with ⟨blanks, rest, he, hblank, hr⟩ | ⟨run, parts, rest, he, hrun, hpar, -⟩
    · cases blanks with
      | nil =>
        obtain ⟨-, rfl⟩ := List.cons.inj he
        exact @Spells.of_append_closing .term .start .start [] filter whole 0 hr hb
      | cons c blanks =>
        obtain ⟨rfl, -⟩ := List.cons.inj he
        exact absurd (hblank '(' (by simp)) (by decide)
    · cases run with
      | nil =>
        obtain ⟨c, hc, -⟩ := hrun.exists_not_blank
        cases hc
      | cons c run =>
        obtain ⟨rfl, -⟩ := List.cons.inj he
        exact absurd (hpar '(' (by simp)) (by decide)
  · rintro ⟨tree, h⟩
    exact ⟨_, (Row.one (isTerm_enclosed h)).spells_filter⟩

end Tree

variable {P : Type}

theorem Tree.plan_enclose (resolve : Resolver P) (tree : Tree) :
    tree.enclose.plan resolve = tree.plan resolve := by
  cases tree with
  | leaf clause =>
    simp only [enclose, plan, toNode, toEntries]
    cases resolve clause <;> rfl
  | empty => rfl
  | group first rest => rfl

theorem exists_tokens_enclosed {filter : List Char} (hb : Scan.balance 0 0 filter = .ok 0) :
    ∃ tokens, tokenize ('(' :: (filter ++ [')'])) = .ok tokens := by
  refine exists_tokens_iff.mpr ⟨⟨'(', by simp, by decide⟩, ?_⟩
  exact Scan.balance_append_of_ok hb 1 1 [')']

/-- On whichever route a filter with tokens is compiled, it is planned from the tree that it spells,
and a filter that spells none is refused by the reader. -/
theorem exists_reading {filter : List Char} {tokens : List Placed}
    (h : tokenize filter = .ok tokens) : ∃ reading : Except Fault Tree,
      (∀ resolve : Resolver P, compile resolve filter = reading >>= Tree.plan resolve) ∧
      (∀ tree, reading = .ok tree ↔ Tree.Spells .term .start [] filter tree) ∧
      ∀ fault, reading = .error fault → fault.stage = .parse := by
  have hfull : ∀ fault, Tree.ofFilter filter = .error fault → fault.stage = .parse := by
    intro fault hf
    rw [Tree.ofFilter, h, ok_bind] at hf
    exact Tree.stage_of_ofTokens hf
  by_cases hpar : filter.any Route.isParenthesis = true
  · refine ⟨Tree.ofFilter filter, fun resolve => ?_, fun tree => Tree.ofFilter_eq_ok_iff, hfull⟩
    simp only [compile, Route.ofFilter, hpar, if_true, compileAlong, compileFull]
  · have hnone := Route.no_parenthesis_iff.mpr (Bool.eq_false_iff.mpr hpar)
    have hnot : filter.all isBlank = false := by
      obtain ⟨⟨c, hc, hb⟩, -⟩ := exists_tokens_iff.mp ⟨tokens, h⟩
      exact List.all_eq_false.mpr ⟨c, hc, by simp [hb]⟩
    refine ⟨Tree.ofFlatFilter filter, fun resolve => ?_, fun tree => ?_, fun fault hf => ?_⟩
    · simp only [compile, Route.ofFilter, if_neg hpar, compileAlong, compileFlat]
    · rw [Tree.ofFlatFilter_eq_ok_iff hnone, Tree.ofFilter_eq_ok_iff]
    · have hc := Tree.ofFlatFilter_concur_ofFilter hnone hnot
      rw [hf] at hc
      generalize Tree.ofFilter filter = full at hc
      cases hc with
      | refused _ hs => exact hs

/-- Two ends of compiling that are one to the user: the same plan, or the same clause refused, or
nothing that could be read. -/
inductive Alike : Except Fault (Plan P) → Except Fault (Plan P) → Prop
  | accepted (plan : Plan P) : Alike (.ok plan) (.ok plan)
  | unresolved (clause : Clause) (cause : Mismatch) :
    Alike (.error (.unresolved clause cause)) (.error (.unresolved clause cause))
  | unread {a b : Fault} (ha : a.stage = .parse) (hb : b.stage = .parse) :
    Alike (.error a) (.error b)

theorem Alike.of_resolved {good : Plan P → Prop} {outcome : Except Fault (Plan P)}
    (h : Resolved good outcome) : Alike outcome outcome := by
  rcases h with ⟨plan, rfl, -⟩ | ⟨clause, cause, rfl⟩
  · exact .accepted plan
  · exact .unresolved clause cause

/-- Parentheses around a whole filter make no difference. -/
theorem compile_enclosed (resolve : Resolver P) {filter : List Char} {tokens : List Placed}
    (h : tokenize filter = .ok tokens) :
    Alike (compile resolve filter) (compile resolve ('(' :: (filter ++ [')']))) := by
  have hb := (exists_tokens_iff.mp ⟨tokens, h⟩).2
  obtain ⟨tokens', h'⟩ := exists_tokens_enclosed hb
  obtain ⟨reading, hc, hs, hf⟩ := @exists_reading P filter tokens h
  obtain ⟨reading', hc', hs', hf'⟩ := @exists_reading P _ tokens' h'
  rw [hc, hc']
  cases hr : reading with
  | ok tree =>
    have hspells := (hs tree).mp hr
    have henclosed := (Tree.Row.one (Tree.isTerm_enclosed hspells)).spells_filter
    have hnormal := Tree.normal_of_ofFilter (Tree.ofFilter_eq_ok_iff.mpr hspells)
    rw [(hs' _).mpr henclosed, ok_bind, ok_bind]
    rw [Tree.ofParts, Tree.plan_enclose]
    exact .of_resolved hnormal.resolved_plan
  | error fault =>
    cases hr' : reading' with
    | ok tree =>
      obtain ⟨other, ho⟩ := (Tree.exists_spells_enclosed_iff hb).mp ⟨tree, (hs' tree).mp hr'⟩
      rw [(hs other).mpr ho] at hr
      cases hr
    | error fault' => exact .unread (hf fault hr) (hf' fault' hr')

/-- Outside the parentheses the scanner cuts the clause text at the marker, inside them it does
not. -/
theorem compile_enclosed_marker :
    tokenize "a|b|c|d|or;e|f|g|h".toList = .ok [⟨.clauses "a|b|c|d", 0⟩, ⟨.joiner .or, 7⟩,
      ⟨.clauses "e|f|g|h", 11⟩, ⟨.finish, 18⟩] ∧
      Alike (compile Resolver.verbatim "a|b|c|d|or;e|f|g|h".toList)
        (compile Resolver.verbatim "(a|b|c|d|or;e|f|g|h)".toList) := by
  have h : tokenize "a|b|c|d|or;e|f|g|h".toList = .ok [⟨.clauses "a|b|c|d", 0⟩, ⟨.joiner .or, 7⟩,
      ⟨.clauses "e|f|g|h", 11⟩, ⟨.finish, 18⟩] := by decide
  exact ⟨h, compile_enclosed Resolver.verbatim h⟩

end ModelQuery
