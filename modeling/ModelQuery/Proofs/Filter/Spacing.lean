import ModelQuery.Proofs.Filter.Compiled

/-! Blanks that mean nothing. They may be put at either end of a filter, beside a parenthesis,
before a bar and behind a semicolon: the filter spells the same tree with them as without, or none
either way. -/

namespace ModelQuery

open Text

/-- Whether blanks between these two parts of a filter would mean nothing: one of the parts is
empty, or the place between them is beside a parenthesis, before a bar or behind a semicolon. -/
def isLoose (front back : List Char) : Bool :=
  front.isEmpty || back.isEmpty ||
    front.getLast?.any (fun c => Route.isParenthesis c || c == ';') ||
    back.head?.any (fun c => Route.isParenthesis c || c == '|')

theorem isLoose_of_append {taken front back : List Char}
    (h : isLoose (taken ++ front) back = true) : isLoose front back = true := by
  by_cases hf : front = []
  · subst front
    rfl
  · simpa [isLoose, hf, List.getLast?_append_of_ne_nil _ hf] using h

theorem isLoose_of_cons {c : Char} {front back : List Char}
    (h : isLoose (c :: front) back = true) : isLoose front back = true :=
  @isLoose_of_append [c] front back h

theorem no_parenthesis_insert {c : Char} (hc : isBlank c = true) {front back : List Char} :
    (∀ d ∈ front ++ c :: back, Route.isParenthesis d = false) ↔
      ∀ d ∈ front ++ back, Route.isParenthesis d = false := by
  simp only [List.mem_append, List.mem_cons, or_imp, forall_and, forall_eq,
    Route.isParenthesis_of_isBlank hc, true_and]

namespace Joiner

/-- A marker is firm: no place inside it is loose. -/
theorem Marks.isLoose_eq_false {joiner : Joiner} {front back : List Char}
    (hm : joiner.Marks (front ++ back)) (hfront : front ≠ []) (hback : back ≠ [])
    (rest : List Char) : isLoose front (back ++ rest) = false := by
  have hpar := hm.no_parenthesis
  obtain ⟨hf, hb⟩ := hm.mem_parts hfront hback
  obtain ⟨before, c, rfl⟩ := (List.eq_nil_or_concat' front).resolve_left hfront
  obtain ⟨d, after, rfl⟩ := List.exists_cons_of_ne_nil hback
  have hc : c ≠ ';' := by
    rintro rfl
    exact absurd (hf ';' (by simp)) (by decide)
  have hd : d ≠ '|' := by
    rintro rfl
    exact absurd (hb '|' (by simp)) (by decide)
  simp [isLoose, hpar c (by simp), hpar d (by simp), hc, hd]

theorem Marks.front_of_isLoose {joiner : Joiner} {mark front back text : List Char}
    (hm : joiner.Marks mark) (hne : front ≠ []) (hl : isLoose front back = true)
    (he : mark ++ text = front ++ back) : ∃ more, front = mark ++ more ∧ text = more ++ back := by
  rcases List.append_eq_append_iff.mp he with ⟨more, rfl, rfl⟩ | ⟨more, rfl, rfl⟩
  · exact ⟨more, rfl, rfl⟩
  · by_cases hmore : more = []
    · exact ⟨[], by simp [hmore], by simp [hmore]⟩
    · rw [hm.isLoose_eq_false hne hmore] at hl
      cases hl

/-- No place inside a marker is blank, either. -/
theorem Marks.front_of_isBlank {joiner : Joiner} {mark front back text : List Char} {c : Char}
    (hm : joiner.Marks mark) (hne : front ≠ []) (hc : isBlank c = true)
    (he : mark ++ text = front ++ c :: back) :
    ∃ more, front = mark ++ more ∧ text = more ++ c :: back := by
  rcases List.append_eq_append_iff.mp he with ⟨more, rfl, rfl⟩ | ⟨more, rfl, hb⟩
  · exact ⟨more, rfl, rfl⟩
  · cases more with
    | nil => exact ⟨[], by simp, hb.symm⟩
    | cons d more =>
      obtain ⟨rfl, -⟩ := List.cons.inj hb
      rcases (hm.mem_parts hne (by simp)).2 c (by simp) with ha | rfl
      · simp [isBlank_of_isAlpha ha] at hc
      · exact absurd hc (by decide)

end Joiner

namespace Clause

theorem read_eq_ok_congr {text text' : List Char} (h : fields text' = fields text)
    {position : Nat} {found : Clause × Joiner} :
    read text' position = .ok found ↔ read text position = .ok found := by
  unfold read
  rw [h]
  split <;> simp

theorem fields_blank_bar {c : Char} (h : isBlank c = true) (text rest : List Char) :
    fields (text ++ c :: '|' :: rest) = fields (text ++ '|' :: rest) := by
  have hc : ∀ d ∈ [c], isBlank d = true := by simpa using h
  have he : text ++ c :: '|' :: rest = (text ++ [c]) ++ '|' :: rest := by simp
  rw [fields_of_mem_bar (by simp), fields_of_mem_bar (by simp), he, pieces_append_separator,
    pieces_append_separator, List.map_append, List.map_append,
    map_trim_pieces_append_blank hc (by decide)]

/-- A run may begin with other text that gives the same fields. -/
theorem isRun_congr_fields {text text' : List Char} (ht : ';' ∉ text) (ht' : ';' ∉ text')
    (h : ∀ piece, fields (text' ++ piece) = fields (text ++ piece)) {rest : List Char}
    {joiner : Joiner} {parts : List (Joiner × Tree)} :
    IsRun joiner (text' ++ rest) parts ↔ IsRun joiner (text ++ rest) parts := by
  induction rest using cut_induction ';' with
  | whole piece hp =>
    rw [isRun_whole_iff (by simp [ht', hp]), isRun_whole_iff (by simp [ht, hp])]
    simp only [read_eq_ok_congr (h piece)]
  | cut piece rest hp =>
    rw [← List.append_assoc, ← List.append_assoc, isRun_cut_iff (by simp [ht', hp]),
      isRun_cut_iff (by simp [ht, hp])]
    simp only [read_eq_ok_congr (h piece)]

section Runs

variable {c : Char} {text rest : List Char} {joiner : Joiner} {parts : List (Joiner × Tree)}

theorem isRun_blank_bar (h : isBlank c = true) :
    IsRun joiner (text ++ c :: '|' :: rest) parts ↔ IsRun joiner (text ++ '|' :: rest) parts := by
  have hc : c ≠ ';' := by
    rintro rfl
    exact absurd h (by decide)
  induction text using cut_induction ';' generalizing joiner parts with
  | whole text ht =>
    have hrun := @isRun_congr_fields (text ++ ['|']) (text ++ [c, '|']) (by simp [ht])
      (by simp [ht, Ne.symm hc]) (fun piece => by simpa using fields_blank_bar h text piece)
      rest joiner parts
    simpa using hrun
  | cut piece text hp ih =>
    rw [List.append_assoc, List.append_assoc, List.cons_append, List.cons_append,
      isRun_cut_iff hp, isRun_cut_iff hp]
    simp only [ih]

theorem isRun_cons_blank (h : isBlank c = true) :
    IsRun joiner (c :: text) parts ↔ IsRun joiner text parts :=
  @isRun_blank_append [c] (by simpa using h) text joiner parts

theorem isRun_concat_blank (h : isBlank c = true) :
    IsRun joiner (text ++ [c]) parts ↔ IsRun joiner text parts :=
  @isRun_append_blank [c] (by simpa using h) text joiner parts

theorem isRun_semicolon_blank (h : isBlank c = true) :
    IsRun joiner (text ++ ';' :: c :: rest) parts ↔ IsRun joiner (text ++ ';' :: rest) parts := by
  induction text using cut_induction ';' generalizing joiner parts with
  | whole piece hp =>
    rw [isRun_cut_iff hp, isRun_cut_iff hp]
    simp only [isRun_cons_blank h]
  | cut piece text hp ih =>
    rw [List.append_assoc, List.append_assoc, List.cons_append, List.cons_append,
      isRun_cut_iff hp, isRun_cut_iff hp]
    simp only [ih]

/-- Where no parenthesis stands, a place is loose for a bar behind it or a semicolon before it. -/
theorem isRun_insert {back : List Char} (hc : isBlank c = true) (htext : text ≠ [])
    (hback : back ≠ []) (hpar : ∀ d ∈ text ++ back, Route.isParenthesis d = false)
    (hl : isLoose text (back ++ rest) = true) :
    IsRun joiner (text ++ c :: back) parts ↔ IsRun joiner (text ++ back) parts := by
  obtain ⟨before, b, rfl⟩ := (List.eq_nil_or_concat' text).resolve_left htext
  obtain ⟨d, after, rfl⟩ := List.exists_cons_of_ne_nil hback
  have hb := hpar b (by simp)
  have hd := hpar d (by simp)
  have hends : b = ';' ∨ d = '|' := by simpa [isLoose, hb, hd] using hl
  rcases hends with rfl | rfl
  · simpa using @isRun_semicolon_blank c before (d :: after) joiner parts hc
  · exact isRun_blank_bar hc

end Runs

end Clause

namespace Tree

theorem head?_trimStart_insert {c : Char} (hc : isBlank c = true) (front back : List Char) :
    (trimStart (front ++ c :: back)).head? = (trimStart (front ++ back)).head? := by
  induction front with
  | nil => simp [trimStart, hc]
  | cons d front ih =>
    by_cases hd : isBlank d = true
    · simpa [trimStart, hd] using ih
    · simp [trimStart, hd]

theorem Bounds.not_blank {c : Char} {text : List Char} (hc : isBlank c = true) :
    ¬ Bounds (c :: text) := by
  rintro (hn | ⟨d, rest, he, hp⟩ | ⟨joiner, mark, rest, ⟨letters, -, rfl⟩, he, -⟩)
  · cases hn
  · obtain ⟨rfl, -⟩ := List.cons.inj he
    rw [Route.isParenthesis_of_isBlank hc] at hp
    cases hp
  · obtain ⟨rfl, -⟩ := List.cons.inj he
    exact absurd hc (by decide)

theorem bounds_insert {c : Char} {front back : List Char} (hc : isBlank c = true)
    (hne : front ≠ []) (hl : isLoose front back = true) :
    Bounds (front ++ c :: back) ↔ Bounds (front ++ back) := by
  have hparen : ∀ {text : List Char} {d : Char} {rest : List Char}, front ++ text = d :: rest →
      ∃ more, front = d :: more := by
    intro text d rest he
    obtain ⟨b, more, rfl⟩ := List.exists_cons_of_ne_nil hne
    obtain ⟨rfl, -⟩ := List.cons.inj he
    exact ⟨more, rfl⟩
  constructor
  · rintro (hn | ⟨d, rest, he, hp⟩ | ⟨joiner, mark, rest, hm, he, hg⟩)
    · simp at hn
    · obtain ⟨more, rfl⟩ := hparen he
      exact Or.inr (Or.inl ⟨d, more ++ back, rfl, hp⟩)
    · obtain ⟨more, rfl, rfl⟩ := hm.front_of_isBlank hne hc he.symm
      refine Or.inr (Or.inr ⟨joiner, mark, more ++ back, hm, by simp, ?_⟩)
      rwa [head?_trimStart_insert hc] at hg
  · rintro (hn | ⟨d, rest, he, hp⟩ | ⟨joiner, mark, rest, hm, he, hg⟩)
    · exact absurd (List.append_eq_nil_iff.mp hn).1 hne
    · obtain ⟨more, rfl⟩ := hparen he
      exact Or.inr (Or.inl ⟨d, more ++ c :: back, rfl, hp⟩)
    · obtain ⟨more, rfl, rfl⟩ := hm.front_of_isLoose hne hl he.symm
      refine Or.inr (Or.inr ⟨joiner, mark, more ++ c :: back, hm, by simp, ?_⟩)
      rwa [head?_trimStart_insert hc]

section Blanks

variable {c : Char} {turn : Turn} {level : Level} {outer : List Level} {text : List Char}
  {tree : Tree}

theorem spells_blank (hc : isBlank c = true) :
    Spells turn level outer (c :: text) tree ↔ Spells turn level outer text tree := by
  refine ⟨fun h => ?_, .blank hc⟩
  generalize hw : c :: text = whole at h
  cases h with
  | blank _ rest =>
    obtain ⟨-, rfl⟩ := List.cons.inj hw
    exact rest
  | opening | closing =>
    obtain ⟨rfl, -⟩ := List.cons.inj hw
    exact absurd hc (by decide)
  | mark hm =>
    obtain ⟨letters, -, rfl⟩ := hm
    obtain ⟨rfl, -⟩ := List.cons.inj hw
    exact absurd hc (by decide)
  | @run _ _ run parts text _ hrun hpar hb rest =>
    cases run with
    | nil =>
      rw [List.nil_append] at hw
      exact absurd (hw ▸ hb) (Bounds.not_blank hc)
    | cons d run =>
      obtain ⟨rfl, rfl⟩ := List.cons.inj hw
      exact .run ((Clause.isRun_cons_blank hc).mp hrun) (fun e he => hpar e (by simp [he])) hb rest
  | finish => cases hw

theorem Spells.insert {front back : List Char} (h : Spells turn level outer text tree)
    (hc : isBlank c = true) (he : text = front ++ back) (hl : isLoose front back = true) :
    Spells turn level outer (front ++ c :: back) tree := by
  induction h generalizing front with
  | blank hb rest ih =>
    cases front with
    | nil =>
      cases he
      exact .blank hc (.blank hb rest)
    | cons d front =>
      cases he
      exact .blank hb (ih rfl (isLoose_of_cons hl))
  | opening rest ih =>
    cases front with
    | nil =>
      cases he
      exact .blank hc (.opening rest)
    | cons d front =>
      cases he
      exact .opening (ih rfl (isLoose_of_cons hl))
  | closing rest ih =>
    cases front with
    | nil =>
      cases he
      exact .blank hc (.closing rest)
    | cons d front =>
      cases he
      exact .closing (ih rfl (isLoose_of_cons hl))
  | mark hm rest ih =>
    by_cases hne : front = []
    · subst front
      cases he
      exact .blank hc (.mark hm rest)
    · obtain ⟨more, rfl, rfl⟩ := hm.front_of_isLoose hne hl he
      rw [List.append_assoc]
      exact .mark hm (ih rfl (isLoose_of_append hl))
  | @run level outer run parts text tree hrun hpar hb rest ih =>
    by_cases hne : front = []
    · subst front
      cases he
      exact .blank hc (.run hrun hpar hb rest)
    -- Directly behind the run the blank becomes its last character.
    have hbehind : Spells .term level outer (run ++ c :: text) tree := by
      have hpar' := (@no_parenthesis_insert c hc run []).mpr (by simpa using hpar)
      simpa using Spells.run ((Clause.isRun_concat_blank hc).mpr hrun) hpar' hb rest
    rcases List.append_eq_append_iff.mp he with ⟨more, rfl, rfl⟩ | ⟨more, rfl, rfl⟩
    · by_cases hmore : more = []
      · subst more
        simpa using hbehind
      · have hl := isLoose_of_append hl
        rw [List.append_assoc]
        exact .run hrun hpar ((bounds_insert hc hmore hl).mpr hb) (ih rfl hl)
    · by_cases hmore : more = []
      · subst more
        simpa using hbehind
      · have hrun' := (Clause.isRun_insert hc hne hmore hpar hl).mpr hrun
        simpa using Spells.run hrun' ((no_parenthesis_insert hc).mpr hpar) hb rest
  | finish =>
    obtain ⟨rfl, rfl⟩ := List.append_eq_nil_iff.mp he.symm
    exact .blank hc .finish

theorem Spells.remove {front back : List Char} (h : Spells turn level outer text tree)
    (hc : isBlank c = true) (he : text = front ++ c :: back) (hl : isLoose front back = true) :
    Spells turn level outer (front ++ back) tree := by
  induction h generalizing front with
  | blank hb rest ih =>
    cases front with
    | nil =>
      cases he
      exact rest
    | cons d front =>
      cases he
      exact .blank hb (ih rfl (isLoose_of_cons hl))
  | opening rest ih =>
    cases front with
    | nil =>
      cases he
      exact absurd hc (by decide)
    | cons d front =>
      cases he
      exact .opening (ih rfl (isLoose_of_cons hl))
  | closing rest ih =>
    cases front with
    | nil =>
      cases he
      exact absurd hc (by decide)
    | cons d front =>
      cases he
      exact .closing (ih rfl (isLoose_of_cons hl))
  | mark hm rest ih =>
    by_cases hne : front = []
    · subst front
      exact (spells_blank hc).mp (by simpa [he] using Spells.mark hm rest)
    · obtain ⟨more, rfl, rfl⟩ := hm.front_of_isBlank hne hc he
      rw [List.append_assoc]
      exact .mark hm (ih rfl (isLoose_of_append hl))
  | @run level outer run parts text tree hrun hpar hb rest ih =>
    by_cases hne : front = []
    · subst front
      exact (spells_blank hc).mp (by simpa [he] using Spells.run hrun hpar hb rest)
    rcases List.append_eq_append_iff.mp he with ⟨more, rfl, rfl⟩ | ⟨more, rfl, hb'⟩
    · have hmore : more ≠ [] := by
        rintro rfl
        exact Bounds.not_blank hc hb
      have hl := isLoose_of_append hl
      rw [List.append_assoc]
      exact .run hrun hpar ((bounds_insert hc hmore hl).mp hb) (ih rfl hl)
    · cases more with
      | nil =>
        cases hb'
        exact absurd hb (Bounds.not_blank hc)
      | cons d more =>
        simp only [List.cons_append, List.cons.injEq] at hb'
        obtain ⟨rfl, rfl⟩ := hb'
        have hpar' := (no_parenthesis_insert hc).mp hpar
        rw [← List.append_assoc]
        by_cases hmore : more = []
        · subst more
          exact .run (by simpa using (Clause.isRun_concat_blank hc).mp hrun) hpar' hb rest
        · exact .run ((Clause.isRun_insert hc hne hmore hpar' hl).mp hrun) hpar' hb rest
  | finish => simp at he

theorem spells_insert {front back : List Char} (hc : isBlank c = true)
    (hl : isLoose front back = true) : Spells turn level outer (front ++ c :: back) tree ↔
      Spells turn level outer (front ++ back) tree :=
  ⟨fun h => h.remove hc rfl hl, fun h => h.insert hc rfl hl⟩

end Blanks

end Tree

/-- A text is the filter with blanks put at loose places, one after the other. -/
inductive Spaced (filter : List Char) : List Char → Prop
  | refl : Spaced filter filter
  | insert {front back : List Char} {c : Char} (hc : isBlank c = true)
    (hl : isLoose front back = true) (h : Spaced filter (front ++ back)) :
    Spaced filter (front ++ c :: back)

theorem Spaced.spells_iff {filter spaced : List Char} (h : Spaced filter spaced) {tree : Tree} :
    Tree.Spells .term .start [] spaced tree ↔ Tree.Spells .term .start [] filter tree := by
  induction h with
  | refl => rfl
  | insert hc hl _ ih => exact (Tree.spells_insert hc hl).trans ih

/-- Blanks at loose places change neither the tree of a filter nor what it compiles to, and a
filter that is rejected without them is rejected with them. -/
theorem ok_iff_of_spaced {filter spaced : List Char} (h : Spaced filter spaced) :
    (∀ tree, Tree.ofFilter spaced = .ok tree ↔ Tree.ofFilter filter = .ok tree) ∧
      ∀ {P : Type} (resolve : Resolver P) (plan : Plan P),
        compile resolve spaced = .ok plan ↔ compile resolve filter = .ok plan := by
  constructor
  · intro tree
    rw [Tree.ofFilter_eq_ok_iff, Tree.ofFilter_eq_ok_iff, h.spells_iff]
  · intro P resolve plan
    simp only [compile_eq_ok_iff, compileFull_eq_ok_iff, h.spells_iff]

theorem ok_iff_of_spaced_around_group :
    let filter := "(a|b|=|1)|OR;c|d|=|2".toList
    let spaced := "(\u2003a|b|=|1) |OR;\tc|d|=|2".toList
    Spaced filter spaced ∧
      (∀ tree, Tree.ofFilter spaced = .ok tree ↔ Tree.ofFilter filter = .ok tree) ∧
      ∀ {P : Type} (resolve : Resolver P) (plan : Plan P),
        compile resolve spaced = .ok plan ↔ compile resolve filter = .ok plan := by
  intro filter spaced
  have hinsert : ∀ (front back : List Char) (c : Char) {text : List Char},
      Spaced filter (front ++ back) → (isBlank c && isLoose front back) = true →
      text = front ++ c :: back → Spaced filter text := by
    rintro front back c _ h hc rfl
    rw [Bool.and_eq_true] at hc
    exact .insert hc.1 hc.2 h
  have hgroup : Spaced filter "(\u2003a|b|=|1)|OR;c|d|=|2".toList :=
    hinsert "(".toList "a|b|=|1)|OR;c|d|=|2".toList '\u2003' .refl (by decide) (by decide +kernel)
  have hbar : Spaced filter "(\u2003a|b|=|1) |OR;c|d|=|2".toList :=
    hinsert "(\u2003a|b|=|1)".toList "|OR;c|d|=|2".toList ' ' hgroup (by decide) (by decide +kernel)
  have h : Spaced filter spaced :=
    hinsert "(\u2003a|b|=|1) |OR;".toList "c|d|=|2".toList '\t' hbar (by decide) (by decide +kernel)
  exact ⟨h, ok_iff_of_spaced h⟩

end ModelQuery
