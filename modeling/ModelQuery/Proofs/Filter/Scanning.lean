import ModelQuery.Proofs.Filter.ClauseRun

/-! Scanning from one token to the next. Between two tokens stands one of six things, and of each it
is said here what the scanner makes of it, so that no later proof follows single characters. -/

namespace ModelQuery.Scan

open Text

variable {depth : Nat}

theorem begin_blank {c : Char} (h : isBlank c = true) (position : Nat) (rest : List Char) :
    begin depth position c rest = .ok ([], ⟨depth, .gap⟩) := by
  have h1 : c ≠ '(' := fun he => absurd (he ▸ h) (by decide)
  have h2 : c ≠ ')' := fun he => absurd (he ▸ h) (by decide)
  simp [begin, h1, h2, h]

theorem begin_mark {joiner : Joiner} {letters : List Char}
    (h : joiner.Marks ('|' :: letters)) (position : Nat) (rest : List Char) :
    begin depth position '|' (letters ++ rest) =
      .ok ([⟨.joiner joiner, position⟩], ⟨depth, .marker letters.length⟩) := by
  have hm := marker?_mark h rest
  rw [List.cons_append] at hm
  simp [begin, hm, show isBlank '|' = false by decide]

theorem run_nil (position : Nat) : run ⟨depth, .gap⟩ position [] =
    if depth > 0 then .error (.unclosed depth) else .ok [⟨.finish, position⟩] := by
  simp [run, close, Place.pending]

theorem run_blank {c : Char} (h : isBlank c = true) (position : Nat) (rest : List Char) :
    run ⟨depth, .gap⟩ position (c :: rest) = run ⟨depth, .gap⟩ (position + 1) rest := by
  simp only [run, step, begin_blank h, ok_bind, List.nil_append, bind_pure]

theorem run_opening (position : Nat) (rest : List Char) :
    run ⟨depth, .gap⟩ position ('(' :: rest) =
      (⟨.opening, position⟩ :: ·) <$> run ⟨depth + 1, .gap⟩ (position + 1) rest := by
  simp [run, step, begin, map_eq_pure_bind]

theorem run_closing (position : Nat) (rest : List Char) :
    run ⟨depth + 1, .gap⟩ position (')' :: rest) =
      (⟨.closing, position⟩ :: ·) <$> run ⟨depth, .gap⟩ (position + 1) rest := by
  simp [run, step, begin, map_eq_pure_bind]

theorem run_closing_outside (position : Nat) (rest : List Char) :
    run ⟨0, .gap⟩ position (')' :: rest) = .error (.unopened position) := by
  simp [run, step, begin]

theorem run_inside_mark {passed : List Char} (h : passed ≠ []) (position : Nat)
    (rest : List Char) :
    run ⟨depth, .marker passed.length⟩ position (passed ++ rest) =
      run ⟨depth, .gap⟩ (position + passed.length) rest := by
  induction passed generalizing position with
  | nil => exact absurd rfl h
  | cons c passed ih =>
    cases passed with
    | nil => simp only [List.length_cons, List.length_nil, List.cons_append, List.nil_append, run,
        step, ok_bind, bind_pure]
    | cons c' passed =>
      have hi := ih (by simp) (position + 1)
      simp only [List.length_cons, List.cons_append] at hi
      simp only [List.length_cons, List.cons_append, run.eq_2 _ _ c, step, ok_bind, hi,
        List.nil_append, bind_pure]
      congr 1
      omega

theorem run_mark {joiner : Joiner} {mark : List Char} (h : joiner.Marks mark) (position : Nat)
    (rest : List Char) :
    run ⟨depth, .gap⟩ position (mark ++ rest) =
      (⟨.joiner joiner, position⟩ :: ·) <$> run ⟨depth, .gap⟩ (position + mark.length) rest := by
  obtain ⟨letters, hl, rfl⟩ := h
  have hb := @begin_mark depth joiner _ ⟨letters, hl, rfl⟩ position rest
  have hi := @run_inside_mark depth (letters ++ [';']) (by simp) (position + 1) rest
  simp only [List.cons_append, run.eq_2, step, hb, ok_bind, hi, List.length_cons]
  congr 2
  omega

/-- What ends clause text: a parenthesis, or a marker that stands where one can be. -/
theorem breaks_iff {read next : List Char} : breaks depth read next = true ↔
    (∃ rest, next = '(' :: rest ∨ next = ')' :: rest) ∨
      ∃ (joiner : Joiner) (mark rest : List Char), joiner.Marks mark ∧ next = mark ++ rest ∧
        endsBefore depth read rest = true := by
  constructor
  · intro h
    unfold breaks at h
    split at h
    · exact Or.inl ⟨_, Or.inl rfl⟩
    · exact Or.inl ⟨_, Or.inr rfl⟩
    · split at h
      · next joiner length hm =>
        obtain ⟨mark, rest, hmark, rfl, rfl⟩ := exists_mark_of_marker? hm
        exact Or.inr ⟨joiner, mark, rest, hmark, rfl, by simpa using h⟩
      · cases h
  · rintro (⟨rest, rfl | rfl⟩ | ⟨joiner, mark, rest, hm, rfl, he⟩)
    · rfl
    · rfl
    · obtain ⟨letters, hl, rfl⟩ := hm
      have hs := marker?_mark ⟨letters, hl, rfl⟩ rest
      rw [List.cons_append] at hs ⊢
      simp only [breaks, hs]
      simpa using he

/-- Clause text gives way to what stands behind it as if nothing had stood before. -/
theorem run_breaks {read next : List Char} (h : breaks depth read next = true)
    (start position : Nat) :
    run ⟨depth, .text start read⟩ position next =
      textToken start read >>= fun token => (token :: ·) <$> run ⟨depth, .gap⟩ position next := by
  cases next with
  | nil => simp [breaks, marker?] at h
  | cons c rest =>
    simp only [run, step, h, if_true]
    cases textToken start read with
    | error fault => rfl
    | ok token =>
      cases begin depth position c rest with
      | error fault => rfl
      | ok result =>
        simp only [ok_bind, pure_eq_ok]
        cases run result.2 (position + 1) rest <;> rfl

theorem run_text_nil (start position : Nat) (read : List Char) :
    run ⟨depth, .text start read⟩ position [] =
      textToken start read >>= fun token => (token :: ·) <$> run ⟨depth, .gap⟩ position [] := by
  simp only [run, close, Place.pending]
  cases textToken start read with
  | error fault => rfl
  | ok token => by_cases h : depth > 0 <;> simp [h]

theorem textToken_eq_ok {text : List Char} (h : ∃ c ∈ text, isBlank c = false) (start : Nat) :
    textToken start text.reverse = .ok ⟨.clauses (String.ofList (trim text)), start⟩ := by
  have hne : (trim text).isEmpty = false := by
    refine Bool.eq_false_iff.mpr fun he => ?_
    obtain ⟨c, hc, hb⟩ := h
    rw [trim_eq_nil_iff.mp (List.isEmpty_iff.mp he) c hc] at hb
    cases hb
  simp [textToken, hne]

/-- Clause text as far as the scanner takes it, with the rest of the filter behind it. -/
structure Extent (depth : Nat) (text rest : List Char) : Prop where
  begins : ∃ c ∈ text.head?, isBlank c = false
  no_parenthesis : ∀ c ∈ text, Route.isParenthesis c = false
  no_marker : marker? (text ++ rest) = none
  ends : rest = [] ∨ breaks depth text.reverse rest = true
  unbroken : ∀ read next, read ≠ [] → next ≠ [] → text = read ++ next →
    breaks depth read.reverse (next ++ rest) = false

theorem Extent.ne_nil {text rest : List Char} (h : Extent depth text rest) : text ≠ [] := by
  rintro rfl
  obtain ⟨c, hc, -⟩ := h.begins
  cases hc

/-- Clause text is never blank, so it ends at the end, at a parenthesis, before a group, or outside
all parentheses behind four fields. -/
theorem Extent.ends_cases {text rest : List Char} (h : Extent depth text rest) :
    rest = [] ∨ (∃ c more, rest = c :: more ∧ Route.isParenthesis c = true) ∨
      ∃ (joiner : Joiner) (mark more : List Char), joiner.Marks mark ∧ rest = mark ++ more ∧
        ((trimStart more).head? = some '(' ∨
          depth = 0 ∧ (Clause.lastClause text).count '|' = 3) := by
  rcases h.ends with rfl | hb
  · exact Or.inl rfl
  rcases breaks_iff.mp hb with ⟨more, rfl | rfl⟩ | ⟨joiner, mark, more, hm, rfl, he⟩
  · exact Or.inr (Or.inl ⟨_, _, rfl, rfl⟩)
  · exact Or.inr (Or.inl ⟨_, _, rfl, rfl⟩)
  refine Or.inr (Or.inr ⟨joiner, mark, more, hm, rfl, ?_⟩)
  simp only [endsBefore, Bool.or_eq_true, Bool.and_eq_true, beq_iff_eq] at he
  rcases he with (hblank | hgroup) | hbars
  · obtain ⟨c, hc, hnot⟩ := h.begins
    have hmem : c ∈ text.reverse := List.mem_reverse.mpr (List.mem_of_mem_head? hc)
    simp [List.all_eq_true.mp hblank c hmem] at hnot
  · exact Or.inl hgroup
  · exact Or.inr hbars

theorem Extent.head_not_blank {text rest : List Char} (h : Extent depth text rest) :
    ∀ c ∈ text.head?, isBlank c = false := by
  obtain ⟨c, hc, hb⟩ := h.begins
  intro d hd
  rwa [Option.mem_unique hd hc]

theorem Extent.run_from {text rest read next : List Char} (h : Extent depth text rest)
    (hread : read ≠ []) (he : text = read ++ next) (start position : Nat) :
    run ⟨depth, .text start read.reverse⟩ position (next ++ rest) =
      (⟨.clauses (String.ofList (trim text)), start⟩ :: ·) <$>
        run ⟨depth, .gap⟩ (position + next.length) rest := by
  induction next generalizing read position with
  | nil =>
    rw [List.append_nil] at he
    subst read
    obtain ⟨c, hc, hblank⟩ := h.begins
    have htoken := textToken_eq_ok ⟨c, List.mem_of_mem_head? hc, hblank⟩ start
    rcases h.ends with rfl | hb
    · rw [List.nil_append, run_text_nil, htoken]
      rfl
    · rw [List.nil_append, run_breaks hb, htoken]
      rfl
  | cons c next ih =>
    have hb := h.unbroken read (c :: next) hread (by simp) he
    have hi := @ih (read ++ [c]) (by simp) (by simp [he]) (position + 1)
    rw [List.reverse_append, List.reverse_singleton, List.singleton_append] at hi
    rw [List.cons_append] at hb ⊢
    simp only [run, step, hb, Bool.false_eq_true, if_false, ok_bind, hi, List.nil_append,
      bind_pure, List.length_cons]
    congr 2
    omega

theorem run_clauses {text rest : List Char} (h : Extent depth text rest) (position : Nat) :
    run ⟨depth, .gap⟩ position (text ++ rest) =
      (⟨.clauses (String.ofList (trim text)), position⟩ :: ·) <$>
        run ⟨depth, .gap⟩ (position + text.length) rest := by
  obtain ⟨c, hc, hblank⟩ := h.begins
  obtain ⟨more, rfl⟩ := List.head?_eq_some_iff.mp hc
  have hpar := h.no_parenthesis c (by simp)
  simp only [Route.isParenthesis, Bool.or_eq_false_iff, beq_eq_false_iff_ne] at hpar
  have hm := h.no_marker
  have hf := h.run_from (List.cons_ne_nil c []) List.singleton_append.symm position (position + 1)
  rw [List.reverse_singleton] at hf
  rw [List.cons_append] at hm ⊢
  simp only [run, step, begin, hpar.1, hpar.2, hblank, hm, if_false, Bool.false_eq_true, ok_bind,
    hf, List.nil_append, bind_pure, List.length_cons]
  congr 2
  omega

/-- Clause text goes on up to the first thing that ends it. -/
theorem exists_unbroken (depth : Nat) (next : List Char) {read : List Char} (hread : read ≠ []) :
    ∃ more rest, next = more ++ rest ∧ (∀ c ∈ more, Route.isParenthesis c = false) ∧
      (rest = [] ∨ breaks depth (read ++ more).reverse rest = true) ∧
      ∀ before after, after ≠ [] → more = before ++ after →
        breaks depth (read ++ before).reverse (after ++ rest) = false := by
  have hnone : ∀ before after : List Char, after ≠ [] → [] ≠ before ++ after :=
    fun before after hne he => hne (List.append_eq_nil_iff.mp he.symm).2
  induction next generalizing read with
  | nil =>
    exact ⟨[], [], rfl, by simp, Or.inl rfl, fun _ _ hne he => absurd he (hnone _ _ hne)⟩
  | cons d next ih =>
    by_cases hb : breaks depth read.reverse (d :: next) = true
    · exact ⟨[], d :: next, rfl, by simp, Or.inr (by simpa using hb),
        fun _ _ hne he => absurd he (hnone _ _ hne)⟩
    · obtain ⟨more, rest, rfl, hp, hends, hun⟩ := @ih (read ++ [d]) (by simp)
      have hd : Route.isParenthesis d = false := by
        refine Bool.eq_false_iff.mpr fun hd => hb ?_
        rcases Route.isParenthesis_iff.mp hd with rfl | rfl <;> rfl
      refine ⟨d :: more, rest, rfl, by simpa [hd] using hp, by simpa using hends, ?_⟩
      intro before after hne he
      cases before with
      | nil =>
        rw [List.nil_append] at he
        subst after
        simpa using hb
      | cons e before =>
        simp only [List.cons_append, List.cons.injEq] at he
        obtain ⟨rfl, rfl⟩ := he
        simpa using hun before after hne rfl

theorem exists_extent {c : Char} {cs : List Char} (hblank : isBlank c = false)
    (hpar : Route.isParenthesis c = false) (hm : marker? (c :: cs) = none) :
    ∃ text rest, c :: cs = text ++ rest ∧ Extent depth text rest := by
  obtain ⟨more, rest, rfl, hp, hends, hun⟩ := exists_unbroken depth cs (List.cons_ne_nil c [])
  refine ⟨c :: more, rest, rfl, ⟨c, rfl, hblank⟩, by simpa [hpar] using hp, hm, hends, ?_⟩
  intro read next hread hnext he
  cases read with
  | nil => exact absurd rfl hread
  | cons e read =>
    simp only [List.cons_append, List.cons.injEq] at he
    obtain ⟨rfl, rfl⟩ := he
    exact hun read next hnext rfl

/-- What may stand between two tokens. -/
inductive Ahead (depth : Nat) : List Char → Prop
  | nothing : Ahead depth []
  | blank {c : Char} {rest : List Char} (h : isBlank c = true) : Ahead depth (c :: rest)
  | opening {rest : List Char} : Ahead depth ('(' :: rest)
  | closing {rest : List Char} : Ahead depth (')' :: rest)
  | mark {joiner : Joiner} {mark rest : List Char} (h : joiner.Marks mark) :
    Ahead depth (mark ++ rest)
  | clauses {text rest : List Char} (h : Extent depth text rest) : Ahead depth (text ++ rest)

theorem ahead (depth : Nat) (cs : List Char) : Ahead depth cs := by
  cases cs with
  | nil => exact .nothing
  | cons c cs =>
    by_cases hblank : isBlank c = true
    · exact .blank hblank
    · by_cases hpar : Route.isParenthesis c = true
      · rcases Route.isParenthesis_iff.mp hpar with rfl | rfl
        · exact .opening
        · exact .closing
      · cases hm : marker? (c :: cs) with
        | some found =>
          obtain ⟨mark, rest, hmark, he, -⟩ := exists_mark_of_marker? hm
          exact he ▸ .mark hmark
        | none =>
          obtain ⟨text, rest, he, hx⟩ := @exists_extent depth c cs
            (by simpa using hblank) (by simpa using hpar) hm
          exact he ▸ .clauses hx

end ModelQuery.Scan
