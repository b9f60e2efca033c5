import ModelQuery.Proofs.Sections.Quoted

/-! Texts in quotes that are cut off. A reader that stops before the end of a text has seen all that
it looks at, so it reads every longer text in the same way. Therefore nothing is left over when the
front of a written text is read. -/

namespace ModelQuery.Sections.Quoted

/-- Whether a reader takes at least so many characters of a text, and reads it in the same way
whatever follows, unless it comes to its end. -/
def Stops (least : Nat) (read : List Char → Option (List Char × List Char)) (cs : List Char) :
    Prop :=
  ∀ text rest, read cs = some (text, rest) → rest.length + least ≤ cs.length ∧
    (rest ≠ [] → ∀ more, read (cs ++ more) = some (text, rest ++ more))

section Steps

variable {least : Nat} {read next : List Char → Option (List Char × List Char)} {c : Char}
  {cs : List Char}

theorem stops_of_eq_none (h : read cs = none) : Stops least read cs :=
  fun _ _ hread => nomatch h.symm.trans hread

theorem stops_of_eq_some (text rest : List Char) (hlength : rest.length + least ≤ cs.length)
    (hread : ∀ more, more = [] ∨ rest ≠ [] → read (cs ++ more) = some (text, rest ++ more)) :
    Stops least read cs := by
  intro _ _ h
  have hsame := hread [] (Or.inl rfl)
  rw [List.append_nil, h] at hsame
  obtain ⟨rfl, hrest⟩ := Prod.mk.inj (Option.some.inj hsame)
  rw [List.append_nil] at hrest
  subst hrest
  exact ⟨hlength, fun hne more => hread more (Or.inr hne)⟩

/-- A reader that goes on after a step reads longer texts in the same way if it takes the same step
there. -/
theorem Stops.step (h : Stops least next cs) (unit : List Char) (put : List Char → List Char)
    (hstep : ∀ more, more = [] ∨ least < cs.length → read (unit ++ cs ++ more) =
      (next (cs ++ more)).map fun found => (put found.1, found.2)) :
    Stops least read (unit ++ cs) := by
  intro text rest hread
  have hfirst := hstep [] (Or.inl rfl)
  rw [List.append_nil, List.append_nil, hread] at hfirst
  obtain ⟨⟨tail, left⟩, hnext, he⟩ := Option.map_eq_some_iff.mp hfirst.symm
  obtain ⟨rfl, rfl⟩ : put tail = text ∧ left = rest := Prod.mk.inj he
  obtain ⟨hlength, hlonger⟩ := h tail left hnext
  refine ⟨by rw [List.length_append]; omega, fun hne more => ?_⟩
  have hpos := List.length_pos_iff.mpr hne
  rw [hstep more (Or.inr (by omega)), hlonger hne, Option.map_some]

theorem Stops.skip (h : Stops least next cs) (unit : List Char)
    (hskip : ∀ more, read (unit ++ cs ++ more) = next (cs ++ more)) :
    Stops least read (unit ++ cs) :=
  h.step unit id fun more _ => (hskip more).trans Option.map_id'.symm

theorem Stops.takes (h : Stops least read cs) {unit : List Char} (hunit : Takes read c unit) :
    Stops least read (unit ++ cs) :=
  h.step unit (c :: ·) fun more _ => by rw [List.append_assoc, hunit]; rfl

theorem Stops.escape (h : Stops least next cs) (unit : List Char) (c? : Option Char)
    (hunit : ∀ rest, read (unit ++ rest) = do return before (← c?) (← next rest)) :
    Stops least read (unit ++ cs) := by
  cases c? with
  | none => exact stops_of_eq_none (hunit cs)
  | some c =>
    refine h.step unit (c :: ·) fun more _ => ?_
    rw [List.append_assoc, hunit]
    cases next (cs ++ more) <;> rfl

end Steps

theorem stops_basic? (cs : List Char) : Stops 1 basic? cs := by
  fun_induction basic? cs with
  | case1 => exact stops_of_eq_none rfl
  | case2 cs => exact stops_of_eq_some [] cs (Nat.le_refl _) fun _ _ => rfl
  | case3 a b c d cs ih => exact ih.escape ['\\', 'u', a, b, c, d] _ fun _ => rfl
  | case4 a b c d e f g i cs ih =>
    exact ih.escape ['\\', 'U', a, b, c, d, e, f, g, i] _ fun _ => rfl
  | case5 c cs hu hU ih =>
    cases hletter : escape? c with
    | none =>
      refine stops_of_eq_none ?_
      rw [basic?, hletter]
      · rfl
      · exact hu
      · exact hU
    | some point => exact ih.takes (readsEscapes_basic?.letter c point hletter)
  | case6 c cs hquote _ _ _ hplain ih =>
    exact ih.takes (readsEscapes_basic?.plain c hplain.1 hquote hplain.2)
  | case7 c cs h1 h2 h3 h4 hplain =>
    refine stops_of_eq_none ?_
    rw [basic?, if_neg hplain]
    all_goals assumption

theorem stops_literal? (cs : List Char) : Stops 1 literal? cs := by
  fun_induction literal? cs with
  | case1 => exact stops_of_eq_none rfl
  | case2 cs => exact stops_of_eq_some [] cs (Nat.le_refl _) fun _ _ => rfl
  | case3 c cs hc hplain ih =>
    have htakes : Takes literal? c [c] := by
      intro rest
      rw [List.singleton_append, literal?, if_pos hplain]
      exact hc
    exact ih.takes htakes
  | case4 c cs hc hplain =>
    refine stops_of_eq_none ?_
    rw [literal?, if_neg hplain]
    exact hc

theorem exists_eq_of_lt_length {cs : List Char} (h : 3 < cs.length) :
    ∃ a b c d more, cs = a :: b :: c :: d :: more := by
  match cs with
  | a :: b :: c :: d :: more => exact ⟨a, b, c, d, more, rfl⟩
  | [] | [_] | [_, _] | [_, _, _] => simp at h

theorem stops_literalLines? (cs : List Char) : Stops 3 literalLines? cs := by
  fun_induction literalLines? cs with
  | case1 => exact stops_of_eq_none rfl
  | case2 cs => exact stops_of_eq_some _ cs (by simp only [List.length_cons]; omega) fun _ _ => rfl
  | case3 cs hfifth =>
    refine stops_of_eq_some [apostrophe] cs (by simp) fun more hmore => ?_
    cases cs with
    | nil =>
      obtain rfl := hmore.resolve_right (absurd rfl)
      rfl
    | cons d cs =>
      simp only [List.cons_append]
      rw [literalLines?]
      simpa using hfifth
  | case4 cs hfifth hfourth =>
    refine stops_of_eq_some [] cs (by simp) fun more hmore => ?_
    cases cs with
    | nil =>
      obtain rfl := hmore.resolve_right (absurd rfl)
      rfl
    | cons d cs =>
      have hd : d ≠ '\x27' := fun hd => hfourth cs (hd ▸ rfl)
      simp only [List.cons_append]
      rw [literalLines?]
      all_goals simp [hd]
  | case5 cs ih => exact ih.takes (fun _ => rfl : Takes _ '\n' ['\r', '\n'])
  | case6 cs ih => exact ih.takes (fun _ => rfl : Takes _ '\n' ['\n'])
  | case7 c cs hfive hfour hthree hcr hn hplain ih =>
    refine ih.step [c] (c :: ·) fun more hmore => ?_
    have hread : literalLines? (c :: (cs ++ more)) =
        (literalLines? (cs ++ more)).map (before c) := by
      rcases hmore with rfl | hlength
      · rw [List.append_nil, literalLines?, if_pos hplain]
        all_goals assumption
      · obtain ⟨a, b, d, e, cs, rfl⟩ := exists_eq_of_lt_length hlength
        have hthird : ¬ (c = '\x27' ∧ a = '\x27' ∧ b = '\x27') := by
          rintro ⟨hc, ha, hb⟩
          exact hthree (d :: e :: cs) hc (by rw [ha, hb])
        simp only [List.cons_append]
        rw [literalLines?, if_pos hplain]
        all_goals simp_all
    exact hread
  | case8 c cs h1 h2 h3 h4 h5 hplain =>
    refine stops_of_eq_none ?_
    rw [literalLines?, if_neg hplain]
    all_goals assumption

theorem isLineRest_append {cs : List Char} (h : isLineRest cs = true) (more : List Char) :
    isLineRest (cs ++ more) = true := by
  unfold isLineRest at h ⊢
  split at h
  · next rest hrest =>
    rw [List.dropWhile_append, hrest]
    rfl
  · next rest hrest =>
    rw [List.dropWhile_append, hrest]
    rfl
  · cases h

theorem stops_basicLines? (folding : Bool) (cs : List Char) : Stops 3 (basicLines? folding) cs := by
  fun_induction basicLines? folding cs with
  | case1 => exact stops_of_eq_none rfl
  | case2 folding cs =>
    exact stops_of_eq_some _ cs (by simp only [List.length_cons]; omega) fun _ _ => rfl
  | case3 folding cs hfifth =>
    refine stops_of_eq_some [quote] cs (by simp) fun more hmore => ?_
    cases cs with
    | nil =>
      obtain rfl := hmore.resolve_right (absurd rfl)
      rfl
    | cons d cs =>
      simp only [List.cons_append]
      rw [basicLines?]
      simpa using hfifth
  | case4 folding cs hfifth hfourth =>
    refine stops_of_eq_some [] cs (by simp) fun more hmore => ?_
    cases cs with
    | nil =>
      obtain rfl := hmore.resolve_right (absurd rfl)
      rfl
    | cons d cs =>
      have hd : d ≠ '\x22' := fun hd => hfourth cs (hd ▸ rfl)
      simp only [List.cons_append]
      rw [basicLines?]
      all_goals simp [hd]
  | case5 cs ih => exact ih.skip ['\r', '\n'] fun _ => rfl
  | case6 folding cs hfolding ih =>
    obtain rfl := Bool.not_eq_true _ ▸ hfolding
    exact ih.takes (fun _ => rfl : Takes _ '\n' ['\r', '\n'])
  | case7 cs ih => exact ih.skip ['\n'] fun _ => rfl
  | case8 folding cs hfolding ih =>
    obtain rfl := Bool.not_eq_true _ ▸ hfolding
    exact ih.takes (fun _ => rfl : Takes _ '\n' ['\n'])
  | case9 folding a b c d cs ih =>
    exact ih.escape ['\\', 'u', a, b, c, d] _ fun _ => rfl
  | case10 folding a b c d e f g i cs ih =>
    exact ih.escape ['\\', 'U', a, b, c, d, e, f, g, i] _ fun _ => rfl
  | case11 folding c cs hu hU hline ih =>
    have hc : c ≠ 'u' ∧ c ≠ 'U' := by
      constructor <;> rintro rfl <;> exact Bool.false_ne_true hline
    refine ih.skip ['\\'] fun more => ?_
    have hmore := isLineRest_append hline more
    simp only [List.cons_append, List.nil_append] at hmore ⊢
    rw [basicLines?, if_pos hmore]
    all_goals simp [hc]
  | case12 folding c cs hu hU hline ih =>
    cases hletter : escape? c with
    | none =>
      refine stops_of_eq_none ?_
      rw [basicLines?, if_neg hline, hletter]
      · rfl
      · exact hu
      · exact hU
    | some point =>
      have hc := ne_of_escape? hletter
      refine ih.escape ['\\', c] (some point) fun rest => ?_
      simp only [List.cons_append, List.nil_append]
      rw [basicLines?, if_neg (by simp [isLineRest_letter hletter]), hletter]
      all_goals simp [hc]
  | case13 folding c cs _ _ _ _ _ _ _ _ hblank ih =>
    obtain ⟨rfl, hc⟩ := Bool.and_eq_true_iff.mp hblank
    refine ih.skip [c] fun more => ?_
    simp only [isBlank, Bool.or_eq_true, beq_iff_eq] at hc
    rcases hc with rfl | rfl <;> rfl
  | case14 folding c cs hfive hfour hthree hcr hn _ _ _ hblank hplain ih =>
    refine ih.step [c] (c :: ·) fun more hmore => ?_
    have hread : basicLines? folding (c :: (cs ++ more)) =
        (basicLines? false (cs ++ more)).map (before c) := by
      rcases hmore with rfl | hlength
      · rw [List.append_nil, basicLines?, if_neg hblank, if_pos hplain]
        all_goals assumption
      · obtain ⟨a, b, d, e, cs, rfl⟩ := exists_eq_of_lt_length hlength
        have hthird : ¬ (c = quote ∧ a = quote ∧ b = quote) := by
          rintro ⟨hc, ha, hb⟩
          exact hthree (d :: e :: cs) hc (by rw [ha, hb]; rfl)
        simp only [List.cons_append]
        rw [basicLines?, if_neg hblank, if_pos hplain]
        all_goals simp_all [quote]
    exact hread
  | case15 folding c cs h1 h2 h3 h4 h5 h6 h7 h8 hblank hplain =>
    refine stops_of_eq_none ?_
    rw [basicLines?, if_neg hblank, if_neg hplain]
    all_goals assumption

theorem Stops.opening {next : List Char → Option (List Char × List Char)} {cs : List Char}
    (h : Stops 3 next (afterOpening cs)) : Stops 3 (fun cs => next (afterOpening cs)) cs := by
  unfold afterOpening at h
  split at h
  · exact h.skip ['\n'] fun _ => rfl
  · exact h.skip ['\r', '\n'] fun _ => rfl
  next hn hr =>
  refine h.step [] id fun more hmore => ?_
  have hopening : afterOpening (cs ++ more) = cs ++ more := by
    rcases hmore with rfl | hlength
    · rw [List.append_nil, afterOpening]
      all_goals assumption
    · obtain ⟨a, b, c, d, cs, rfl⟩ := exists_eq_of_lt_length hlength
      simp only [List.cons_append]
      rw [afterOpening]
      all_goals simp_all
  exact (congrArg next hopening).trans Option.map_id'.symm

/-- A text in quotes that ends before the end is read in the same way whatever follows. -/
theorem text?_append {cs text rest : List Char} (h : text? cs = some (text, rest))
    (hne : rest ≠ []) (more : List Char) : text? (cs ++ more) = some (text, rest ++ more) := by
  have htwo : ∀ {cs : List Char}, rest.length + 1 ≤ cs.length →
      ∃ a b left, cs = a :: b :: left := by
    intro cs hlength
    have hpos := List.length_pos_iff.mpr hne
    match cs with
    | a :: b :: left => exact ⟨a, b, left, rfl⟩
    | [] | [_] => simp only [List.length_cons, List.length_nil] at hlength; omega
  fun_cases text? cs with
  | case1 cs => exact ((stops_basicLines? false _).opening _ _ h).2 hne more
  | case2 cs => exact ((stops_literalLines? _).opening _ _ h).2 hne more
  | case3 cs hquote =>
    have hread : basic? cs = some (text, rest) := (text?_basic hquote).symm.trans h
    obtain ⟨hlength, hlonger⟩ := stops_basic? cs _ _ hread
    obtain ⟨a, b, left, rfl⟩ := htwo hlength
    refine (text?_basic fun _ he => ?_).trans (hlonger hne more)
    obtain ⟨rfl, rfl, -⟩ : a = quote ∧ b = quote ∧ _ := by simpa using he
    exact hquote left rfl
  | case4 cs hmark =>
    have hread : literal? cs = some (text, rest) := (text?_literal hmark).symm.trans h
    obtain ⟨hlength, hlonger⟩ := stops_literal? cs _ _ hread
    obtain ⟨a, b, left, rfl⟩ := htwo hlength
    refine (text?_literal fun _ he => ?_).trans (hlonger hne more)
    obtain ⟨rfl, rfl, -⟩ : a = apostrophe ∧ b = apostrophe ∧ _ := by simpa using he
    exact hmark left rfl
  | case5 cs h1 h2 h3 h4 =>
    rw [text?] at h
    · cases h
    all_goals assumption

/-- What is read of the front of a written text leaves nothing of it. -/
theorem eq_nil_of_front {cs front text rest : List Char} (hfront : front <+: quoted cs)
    (h : text? front = some (text, rest)) : rest = [] := by
  obtain ⟨more, hmore⟩ := hfront
  by_contra hne
  have hlonger := text?_append h hne (more ++ ['\n'])
  rw [← List.append_assoc, hmore, text?_quoted, ← List.append_assoc] at hlonger
  have hrest := (Prod.mk.inj (Option.some.inj hlonger)).2
  exact hne (List.append_eq_nil_iff.mp (List.self_eq_append_left.mp hrest)).1

end ModelQuery.Sections.Quoted
