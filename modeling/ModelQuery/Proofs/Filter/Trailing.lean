import ModelQuery.Proofs.Filter.Spacing
import ModelQuery.Proofs.Filter.Tiling

/-! Text behind the last clause of a level. Another bar there opens a field that nothing reads: the
clause has its four fields already, and there is no next clause for the joiner to join. -/

namespace ModelQuery

open Text

namespace Clause

variable {text more : List Char} {joiner : Joiner} {parts : List (Joiner × Tree)}

theorem fields_append_bar (h : '|' ∈ text) (more : List Char) :
    fields (text ++ '|' :: more) = fields text ++ (pieces '|' more).map trim := by
  have hwhole : '|' ∈ text ++ '|' :: more := by simp
  rw [fields_of_mem_bar hwhole, fields_of_mem_bar h, pieces_append_separator, List.map_append]

/-- A further field may name another joiner, but it leaves the clause as it is. -/
theorem read_append_bar {found : Clause × Joiner} (h : ∀ position, read text position = .ok found)
    (more : List Char) : ∃ next, ∀ position,
      read (text ++ '|' :: more) position = .ok (found.1, next) := by
  have hbar : '|' ∈ text := by
    rcases read_cases text with ⟨-, hcount, -⟩ | ⟨count, he⟩
    · exact List.count_pos_iff.mp (by omega)
    · exact absurd ((he 0).symm.trans (h 0)) (by simp)
  have hread := h 0
  unfold read at hread
  split at hread
  · next category property operator value later hf =>
    cases hread
    have hfields := fields_append_bar hbar more
    rw [hf] at hfields
    simp only [List.cons_append] at hfields
    exact ⟨_, fun position => by simp only [read, hfields]; rfl⟩
  · cases hread

theorem IsRun.append_bar (h : IsRun joiner text parts) (hmore : ';' ∉ more) :
    IsRun joiner (text ++ '|' :: more) parts := by
  induction text using cut_induction ';' generalizing joiner parts with
  | whole piece hp =>
    obtain ⟨found, hf, rfl⟩ := (isRun_whole_iff hp).mp h
    obtain ⟨next, hnext⟩ := read_append_bar hf more
    have hwhole : ';' ∉ piece ++ '|' :: more := by simp [hp, hmore]
    exact (isRun_whole_iff hwhole).mpr ⟨_, hnext, rfl⟩
  | cut piece rest hp ih =>
    obtain ⟨found, later, hf, hl, rfl⟩ := (isRun_cut_iff hp).mp h
    rw [List.append_assoc, List.cons_append]
    exact (isRun_cut_iff hp).mpr ⟨found, later, hf, ih hl, rfl⟩

end Clause

namespace Tree

/-- Clause text ends between these parts of a filter, and so does its level, but for blanks. -/
structure Edge (front back : List Char) : Prop where
  last : ∃ c ∈ front.getLast?, isBlank c = false ∧ Route.isParenthesis c = false
  ends : ∃ blanks rest, back = blanks ++ rest ∧ (∀ c ∈ blanks, isBlank c = true) ∧ Ends rest

section Edges

variable {front back text : List Char}

theorem Edge.ne_nil (h : Edge front back) : front ≠ [] := by
  obtain ⟨c, hc, -⟩ := h.last
  rintro rfl
  cases hc

theorem Edge.of_append {taken : List Char} (h : Edge (taken ++ front) back) (hne : front ≠ []) :
    Edge front back := by
  refine ⟨?_, h.ends⟩
  have hlast := h.last
  rwa [List.getLast?_append_of_ne_nil _ hne] at hlast

theorem Edge.append (h : Edge front back) (taken : List Char) : Edge (taken ++ front) back := by
  refine ⟨?_, h.ends⟩
  rw [List.getLast?_append_of_ne_nil _ h.ne_nil]
  exact h.last

/-- A blank or a parenthesis is not what clause text ends with. -/
theorem Edge.exists_cons {c : Char} (h : Edge front back)
    (hc : isBlank c = true ∨ Route.isParenthesis c = true) (he : c :: text = front ++ back) :
    ∃ more, front = c :: more ∧ text = more ++ back ∧ Edge more back := by
  obtain ⟨d, more, rfl⟩ := List.exists_cons_of_ne_nil h.ne_nil
  obtain ⟨rfl, rfl⟩ := List.cons.inj he
  have hne : more ≠ [] := by
    rintro rfl
    obtain ⟨d, hd, hblank, hpar⟩ := h.last
    obtain rfl : c = d := by simpa using hd
    simp [hblank, hpar] at hc
  exact ⟨more, rfl, rfl, @Edge.of_append more back [c] h hne⟩

theorem Edge.front_of_mark {joiner : Joiner} {mark : List Char} (h : Edge front back)
    (hm : joiner.Marks mark) (he : mark ++ text = front ++ back) :
    ∃ more, front = mark ++ more ∧ text = more ++ back := by
  obtain ⟨blanks, rest, rfl, hblanks, hrest⟩ := h.ends
  cases blanks with
  | nil =>
    refine hm.front_of_isLoose h.ne_nil ?_ he
    rcases hrest with rfl | ⟨rest, rfl⟩ <;> simp [isLoose, Route.isParenthesis]
  | cons c blanks => exact hm.front_of_isBlank h.ne_nil (hblanks c (by simp)) he

/-- Text without parentheses behind the edge is blank. -/
theorem Edge.blank_of_append {more : List Char} (h : Edge front (more ++ text))
    (hpar : ∀ c ∈ more, Route.isParenthesis c = false) : ∀ c ∈ more, isBlank c = true := by
  obtain ⟨blanks, rest, he, hblanks, hrest⟩ := h.ends
  rcases List.append_eq_append_iff.mp he with ⟨later, rfl, -⟩ | ⟨later, rfl, rfl⟩
  · exact fun c hc => hblanks c (List.mem_append_left _ hc)
  · cases later with
    | nil => simpa using hblanks
    | cons d later =>
      obtain ⟨rest, hclosing⟩ := hrest.resolve_left (by simp)
      obtain ⟨rfl, -⟩ := List.cons.inj hclosing
      exact absurd (hpar ')' (by simp)) (by decide)

theorem Edge.head?_ne_opening (h : Edge front back) : (trimStart back).head? ≠ some '(' := by
  obtain ⟨blanks, rest, rfl, hblanks, hrest⟩ := h.ends
  rw [trimStart_blank_append hblanks]
  rcases hrest with rfl | ⟨rest, rfl⟩
  · simp [trimStart]
  · simp [trimStart, isBlank]

theorem Edge.not_term {level : Level} {outer : List Level} {tree : Tree} (h : Edge front back) :
    ¬ Spells .term level outer back tree := by
  intro hs
  rcases hs.term_cases with ⟨blanks, rest, rfl, hb, -⟩ | ⟨run, parts, rest, rfl, hrun, hpar, -⟩
  · have hhead := h.head?_ne_opening
    rw [trimStart_blank_append hb] at hhead
    exact hhead rfl
  · obtain ⟨c, hc, hblank⟩ := hrun.exists_not_blank
    have hmem : c ∈ run := List.mem_reverse.mp ((List.takeWhile_prefix _).subset hc)
    rw [h.blank_of_append hpar c hmem] at hblank
    cases hblank

/-- What bounds clause text before an edge stands in front of the edge altogether. -/
theorem Edge.bounds (h : Edge front back) (hb : Bounds (front ++ back)) (more : List Char) :
    Bounds (front ++ more) := by
  rcases hb with hnil | ⟨c, rest, he, hp⟩ | ⟨joiner, mark, rest, hm, he, hgroup⟩
  · exact absurd (List.append_eq_nil_iff.mp hnil).1 h.ne_nil
  · obtain ⟨after, rfl, -, -⟩ := h.exists_cons (Or.inr hp) he.symm
    exact Or.inr (Or.inl ⟨c, after ++ more, rfl, hp⟩)
  · obtain ⟨after, rfl, rfl⟩ := h.front_of_mark hm he.symm
    have hhead : (trimStart after).head? = some '(' := by
      cases ha : trimStart after with
      | nil =>
        rw [trimStart_blank_append (trimStart_eq_nil_iff.mp ha)] at hgroup
        exact absurd hgroup h.head?_ne_opening
      | cons d tail =>
        have hd := head?_trimStart_append (congrArg List.head? ha) back
        exact hd.symm.trans hgroup
    refine Or.inr (Or.inr ⟨joiner, mark, after ++ more, hm, by simp, ?_⟩)
    exact head?_trimStart_append hhead more

/-- A further field at the edge of a level changes nothing. -/
theorem Spells.insert_field {turn : Turn} {level : Level} {outer : List Level} {tree : Tree}
    {inserted : List Char} (h : Spells turn level outer text tree) (he : text = front ++ back)
    (hedge : Edge front back)
    (hinserted : ∀ c ∈ inserted, c ≠ ';' ∧ Route.isParenthesis c = false) :
    Spells turn level outer (front ++ '|' :: (inserted ++ back)) tree := by
  have hsemi : ';' ∉ inserted := fun hm => (hinserted ';' hm).1 rfl
  induction h generalizing front with
  | blank hb _ ih =>
    obtain ⟨more, rfl, rfl, hmore⟩ := hedge.exists_cons (Or.inl hb) he
    exact .blank hb (ih rfl hmore)
  | opening _ ih =>
    obtain ⟨more, rfl, rfl, hmore⟩ := hedge.exists_cons (Or.inr rfl) he
    exact .opening (ih rfl hmore)
  | closing _ ih =>
    obtain ⟨more, rfl, rfl, hmore⟩ := hedge.exists_cons (Or.inr rfl) he
    exact .closing (ih rfl hmore)
  | mark hm rest ih =>
    obtain ⟨more, rfl, rfl⟩ := hedge.front_of_mark hm he
    by_cases hne : more = []
    · subst more
      exact absurd rest hedge.not_term
    · rw [List.append_assoc]
      exact .mark hm (ih rfl (hedge.of_append hne))
  | @run level outer run parts text tree hrun hpar hb rest ih =>
    -- Either the run ends in front of the edge, or the edge is where it ends but for blanks.
    by_cases hbehind : ∃ more, more ≠ [] ∧ front = run ++ more ∧ text = more ++ back
    · obtain ⟨more, hne, rfl, rfl⟩ := hbehind
      have hmore := hedge.of_append hne
      rw [List.append_assoc]
      exact .run hrun hpar (hmore.bounds hb _) (ih rfl hmore)
    · obtain ⟨blanks, rfl, rfl⟩ : ∃ blanks, run = front ++ blanks ∧ back = blanks ++ text := by
        rcases List.append_eq_append_iff.mp he with ⟨more, rfl, rfl⟩ | hwithin
        · by_cases hne : more = []
          · subst more
            exact ⟨[], by simp, rfl⟩
          · exact absurd ⟨more, hne, rfl, rfl⟩ hbehind
        · exact hwithin
      have hparblanks : ∀ c ∈ blanks, Route.isParenthesis c = false :=
        fun c hc => hpar c (List.mem_append_right _ hc)
      have hblanks := hedge.blank_of_append hparblanks
      have hfield : ';' ∉ inserted ++ blanks := by
        intro hm
        rcases List.mem_append.mp hm with hm | hm
        · exact hsemi hm
        · exact absurd (hblanks ';' hm) (by decide)
      have hrun' := ((Clause.isRun_append_blank hblanks).mp hrun).append_bar hfield
      have hpar' : ∀ c ∈ front ++ '|' :: (inserted ++ blanks), Route.isParenthesis c = false := by
        intro c hc
        simp only [List.mem_append, List.mem_cons] at hc
        rcases hc with hc | rfl | hc | hc
        · exact hpar c (List.mem_append_left _ hc)
        · rfl
        · exact (hinserted c hc).2
        · exact hparblanks c hc
      simpa using Spells.run hrun' hpar' hb rest
  | finish => exact absurd (List.append_eq_nil_iff.mp he.symm).1 hedge.ne_nil

end Edges

end Tree

variable {text filter : List Char} {tokens : List Placed} {next : Placed} {position : Nat}

/-- A level ends where the next token says so. -/
theorem Tiles.ends {later : List Placed} (h : Tiles position text (next :: later))
    (hnext : next.token = .closing ∨ next.token = .finish) : ∃ blanks rest,
      text = blanks ++ rest ∧ (∀ c ∈ blanks, isBlank c = true) ∧ Tree.Ends rest := by
  generalize ht : next :: later = tokens at h
  induction h with
  | finish => exact ⟨[], [], rfl, by simp, Or.inl rfl⟩
  | @blank _ c _ _ hc _ ih =>
    obtain ⟨blanks, rest, rfl, hblanks, hrest⟩ := ih ht
    exact ⟨c :: blanks, rest, rfl, List.forall_mem_cons.mpr ⟨hc, hblanks⟩, hrest⟩
  | @token _ token source rest _ hne hs _ =>
    obtain ⟨rfl, -⟩ := List.cons.inj ht
    obtain rfl : token = .closing := hnext.resolve_right hne
    obtain rfl := hs
    exact ⟨[], ')' :: rest, rfl, by simp, Or.inr ⟨rest, rfl⟩⟩

/-- The token of clause text leads to the edge of a level if the level ends behind it. -/
theorem Tiles.exists_edge {run : String} {start : Nat} (h : Tiles position text tokens)
    (hrun : [⟨.clauses run, start⟩, next] <:+: tokens)
    (hnext : next.token = .closing ∨ next.token = .finish) : ∃ front back,
      text = front ++ back ∧ start + run.length = position + front.length ∧
      Tree.Edge front back := by
  induction h with
  | finish =>
    have hlen := hrun.length_le
    simp at hlen
  | @blank _ c _ _ _ _ ih =>
    obtain ⟨front, back, rfl, hstart, hedge⟩ := ih hrun
    refine ⟨c :: front, back, rfl, ?_, hedge.append [c]⟩
    rw [hstart, List.length_cons, Nat.add_assoc, Nat.add_comm 1]
  | @token position token source rest _ _ hs h ih =>
    rcases List.infix_cons_iff.mp hrun with ⟨later, hprefix⟩ | hlater
    · simp only [List.cons_append, List.cons.injEq, List.nil_append, Placed.mk.injEq] at hprefix
      obtain ⟨⟨rfl, rfl⟩, rfl⟩ := hprefix
      have hlen := hs.length_eq
      obtain ⟨rfl, hne, htrim, hpar⟩ := hs
      have hlast : isBlank (run.toList.getLast hne) = false := by
        have htrimmed : trim run.toList ≠ [] := htrim.symm ▸ hne
        have hl := isBlank_getLast_trim htrimmed
        simpa only [htrim] using hl
      refine ⟨run.toList, rest, rfl, by rw [hlen, Token.width], ?_, h.ends hnext⟩
      exact ⟨_, List.getLast?_eq_some_getLast hne, hlast, hpar _ (List.getLast_mem hne)⟩
    · obtain ⟨front, back, rfl, hstart, hedge⟩ := ih hlater
      refine ⟨source ++ front, back, by rw [List.append_assoc], ?_, hedge.append source⟩
      rw [hstart, List.length_append, Nat.add_assoc]

/-- A bar and any text behind the last clause of a level leave the tree as it is, as long as the
text neither begins another clause nor opens or closes a level. -/
theorem ofFilter_insert_field {run : String} {start : Nat} {inserted : List Char} {tree : Tree}
    (ht : tokenize filter = .ok tokens) (hrun : [⟨.clauses run, start⟩, next] <:+: tokens)
    (hnext : next.token = .closing ∨ next.token = .finish)
    (hinserted : ∀ c ∈ inserted, c ≠ ';' ∧ Route.isParenthesis c = false)
    (h : Tree.ofFilter filter = .ok tree) :
    Tree.ofFilter (filter.take (start + run.length) ++
      '|' :: (inserted ++ filter.drop (start + run.length))) = .ok tree := by
  obtain ⟨front, back, rfl, hstart, hedge⟩ := (tiles_of_tokenize ht).exists_edge hrun hnext
  rw [Nat.zero_add] at hstart
  rw [hstart, List.take_left, List.drop_left]
  have hspells := Tree.ofFilter_eq_ok_iff.mp h
  exact Tree.ofFilter_eq_ok_iff.mpr (hspells.insert_field rfl hedge hinserted)

theorem ofFilter_insert_field_twice :
    let filter := "((a|b|c|d|OR;e|f|g|h|x ))".toList
    let run := "a|b|c|d|OR;e|f|g|h|x"
    let tokens : List Placed := [⟨.opening, 0⟩, ⟨.opening, 1⟩, ⟨.clauses run, 2⟩, ⟨.closing, 23⟩,
      ⟨.closing, 24⟩, ⟨.finish, 25⟩]
    tokenize filter = .ok tokens ∧ ∃ tree, Tree.ofFilter filter = .ok tree ∧
      Tree.ofFilter "((a|b|c|d|OR;e|f|g|h|x|or|AND  ))".toList = .ok tree := by
  intro filter run tokens
  have ht : tokenize filter = .ok tokens := by decide +kernel
  obtain ⟨tree, h⟩ : ∃ tree, Tree.ofFilter filter = .ok tree :=
    exists_eq_ok_of_isOk (by decide +kernel)
  have hrun : [⟨.clauses run, 2⟩, ⟨.closing, 23⟩] <:+: tokens :=
    ⟨[⟨.opening, 0⟩, ⟨.opening, 1⟩], [⟨.closing, 24⟩, ⟨.finish, 25⟩], rfl⟩
  have hinserted : ∀ c ∈ "or|AND ".toList, c ≠ ';' ∧ Route.isParenthesis c = false := by
    simp [Route.isParenthesis]
  have hlonger : filter.take (2 + run.length) ++
      '|' :: ("or|AND ".toList ++ filter.drop (2 + run.length)) =
        "((a|b|c|d|OR;e|f|g|h|x|or|AND  ))".toList := by decide +kernel
  have hlong := ofFilter_insert_field ht hrun (Or.inl rfl) hinserted h
  rw [hlonger] at hlong
  exact ⟨ht, tree, h, hlong⟩

end ModelQuery
