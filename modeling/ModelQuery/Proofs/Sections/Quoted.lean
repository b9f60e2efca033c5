import ModelQuery.Proofs.Document.Scanning
import ModelQuery.Sections.Reading
import ModelQuery.Sections.Writing

/-! Texts in quotes that are read as they were written, whatever characters they hold. Between three
quotes a run of quotes ends the text only if it is long enough, so what a quote stands for is told
by the characters behind it. -/

namespace ModelQuery.Sections

namespace Quoted

/-! ### Characters -/

/-- Whether a reader takes a text for a character, whatever follows. -/
def Takes (read : List Char → Option (List Char × List Char)) (c : Char) (unit : List Char) :
    Prop :=
  ∀ rest, read (unit ++ rest) = (read rest).map (before c)

theorem Takes.read_eq {read : List Char → Option (List Char × List Char)} {c : Char}
    {unit rest cs tail : List Char} (h : Takes read c unit) (hrest : read rest = some (cs, tail)) :
    read (unit ++ rest) = some (c :: cs, tail) := by
  rw [h, hrest]
  rfl

theorem codePoint?_hex {n : Nat} (hn : n < 0x80) :
    codePoint? ['0', '0', (Document.hexDigit (n / 16)).toUpper,
      (Document.hexDigit (n % 16)).toUpper] = some (Char.ofNat n) := by
  have hall : ∀ n < 0x80, codePoint? ['0', '0', (Document.hexDigit (n / 16)).toUpper,
      (Document.hexDigit (n % 16)).toUpper] = some (Char.ofNat n) := by decide
  exact hall n hn

/-- A reader between double quotes. -/
structure ReadsEscapes (read : List Char → Option (List Char × List Char)) : Prop where
  plain : ∀ c, isPlain c = true → c ≠ quote → c ≠ '\\' → Takes read c [c]
  letter : ∀ letter c, escape? letter = some c → Takes read c ['\\', letter]
  hex : ∀ n < 0x80, Takes read (Char.ofNat n) ['\\', 'u', '0', '0',
    (Document.hexDigit (n / 16)).toUpper, (Document.hexDigit (n % 16)).toUpper]

theorem ne_of_escape? {letter c : Char} (h : escape? letter = some c) :
    letter ≠ 'u' ∧ letter ≠ 'U' := by
  constructor <;> rintro rfl <;> cases h

theorem ne_of_isPlain {c : Char} (h : isPlain c = true) : c ≠ '\n' ∧ c ≠ '\r' := by
  constructor <;> rintro rfl <;> exact absurd h (by decide)

theorem readsEscapes_basic? : ReadsEscapes basic? where
  plain c hplain hquote hb rest := by
    rw [List.singleton_append, basic?]
    · simp [hplain, hb]
    all_goals simp_all [quote]
  letter letter c h rest := by
    have hu := ne_of_escape? h
    simp only [List.cons_append, List.nil_append]
    rw [basic?]
    · simp only [h, Option.pure_def, Option.bind_eq_bind, Option.bind_some]
      cases basic? rest <;> rfl
    all_goals simp_all
  hex n hn rest := by
    simp only [List.cons_append, List.nil_append]
    rw [basic?, codePoint?_hex hn]
    cases basic? rest <;> rfl

theorem isLineRest_letter {letter c : Char} (h : escape? letter = some c) (rest : List Char) :
    isLineRest (letter :: rest) = false := by
  have hblank : isBlank letter = false ∧ letter ≠ '\n' ∧ letter ≠ '\r' := by
    unfold escape? at h
    split at h <;> first | decide | cases h
  rw [isLineRest, List.dropWhile_cons, if_neg (by simp [hblank.1])]
  split <;> simp_all

theorem readsEscapes_basicLines? : ReadsEscapes (basicLines? false) where
  plain c hplain hquote hb rest := by
    have hline := ne_of_isPlain hplain
    rw [List.singleton_append, basicLines?]
    · simp [hplain, hb]
    all_goals simp_all [quote]
  letter letter c h rest := by
    have hu := ne_of_escape? h
    simp only [List.cons_append, List.nil_append]
    rw [basicLines?]
    · simp only [isLineRest_letter h, h, Option.pure_def, Option.bind_eq_bind, Option.bind_some]
      cases basicLines? false rest <;> rfl
    all_goals simp_all
  hex n hn rest := by
    simp only [List.cons_append, List.nil_append]
    rw [basicLines?, codePoint?_hex hn]
    cases basicLines? false rest <;> rfl

theorem isPlain_of_not_isControl {c : Char} (h : isControl c = false) (hn : c ≠ '\n') :
    isPlain c = true := by
  simp only [isControl, Bool.and_eq_false_iff, Bool.or_eq_false_iff, decide_eq_false_iff_not,
    bne_eq_false_iff_eq, beq_eq_false_iff_ne] at h
  simp only [isPlain, Bool.or_eq_true, Bool.and_eq_true, decide_eq_true_eq, bne_iff_ne, beq_iff_eq]
  rcases h with (⟨hlow, hdel⟩ | htab) | hline
  · exact Or.inr ⟨Char.not_lt.mp hlow, hdel⟩
  · exact Or.inl htab
  · exact absurd hline hn

theorem toNat_lt_of_isControl {c : Char} (h : isControl c = true) : c.toNat < 0x80 := by
  simp only [isControl, Bool.and_eq_true, Bool.or_eq_true, decide_eq_true_eq, beq_iff_eq] at h
  rcases h with ⟨⟨hlow | rfl, -⟩, -⟩
  · have hlt : c.toNat < ' '.toNat := hlow
    exact hlt.trans (by decide)
  · decide

/-- A character is read as it was written, quotes and line ends aside. -/
theorem ReadsEscapes.takes {read : List Char → Option (List Char × List Char)}
    (h : ReadsEscapes read) {c : Char} (hquote : c ≠ quote) (hn : c ≠ '\n') :
    Takes read c ((Sections.escape? c).getD [c]) := by
  unfold Sections.escape?
  split_ifs with hb ht hf hr hbackslash hcontrol
  · exact h.letter 'b' c (by rw [hb]; rfl)
  · exact h.letter 't' c (by rw [ht]; rfl)
  · exact h.letter 'f' c (by rw [hf]; rfl)
  · exact h.letter 'r' c (by rw [hr]; rfl)
  · exact h.letter '\\' c (by rw [hbackslash]; rfl)
  · have := h.hex c.toNat (toNat_lt_of_isControl hcontrol)
    rwa [Char.ofNat_toNat] at this
  · exact h.plain c (isPlain_of_not_isControl (by simpa using hcontrol) hn) hquote hbackslash

/-! ### Texts on one line -/

theorem basic?_escaped (cs rest : List Char) :
    basic? (escaped false 0 cs ++ quote :: rest) = some (cs, rest) := by
  induction cs with
  | nil => rfl
  | cons c cs ih =>
    by_cases hquote : c = quote
    · subst hquote
      exact (readsEscapes_basic?.letter quote quote rfl).read_eq ih
    by_cases hn : c = '\n'
    · subst hn
      exact (readsEscapes_basic?.letter 'n' '\n' rfl).read_eq ih
    · rw [escaped, if_neg hquote, if_neg (by simp [hn]), List.append_assoc]
      exact (readsEscapes_basic?.takes hquote hn).read_eq ih

theorem literal?_append {cs : List Char} (hplain : ∀ c ∈ cs, isPlain c = true)
    (hmark : apostrophe ∉ cs) (rest : List Char) :
    literal? (cs ++ apostrophe :: rest) = some (cs, rest) := by
  induction cs with
  | nil => rfl
  | cons c cs ih =>
    rw [List.forall_mem_cons] at hplain
    rw [List.mem_cons, not_or] at hmark
    rw [List.cons_append, literal?, if_pos hplain.1, ih hplain.2 hmark.2]
    · rfl
    · exact fun hc => hmark.1 hc.symm

/-! ### Texts over several lines -/

/-- How a body between three quotes spells a text for a reader: quotes that stand for themselves,
`run` of which stand just before and at most two in a row, and what the reader takes for another
character. -/
inductive Spells (mark : Char) (read : List Char → Option (List Char × List Char)) :
    Nat → List Char → List Char → Prop
  | nil (run : Nat) : Spells mark read run [] []
  | mark {run : Nat} {cs body : List Char} (hrun : run < 2)
      (h : Spells mark read (run + 1) cs body) :
    Spells mark read run (mark :: cs) (mark :: body)
  | unit {run : Nat} {c d : Char} {unit cs body : List Char} (hunit : Takes read c (d :: unit))
    (hd : d ≠ mark) (h : Spells mark read 0 cs body) :
    Spells mark read run (c :: cs) (d :: unit ++ body)

/-- A reader that goes on up to three quotes in a row, before which two more may belong to the
text. -/
structure EndsTripled (mark : Char) (read : List Char → Option (List Char × List Char)) : Prop where
  close : ∀ n ≤ 2, ∀ rest, read (List.replicate (n + 3) mark ++ '\n' :: rest) =
    some (List.replicate n mark, '\n' :: rest)
  single : ∀ c rest, c ≠ mark → read (mark :: c :: rest) = (read (c :: rest)).map (before mark)
  double : ∀ c rest, c ≠ mark →
    read (mark :: mark :: c :: rest) = (read (mark :: c :: rest)).map (before mark)

theorem Spells.read_eq {mark : Char} {read : List Char → Option (List Char × List Char)}
    (hread : EndsTripled mark read) {run : Nat} {cs body : List Char}
    (h : Spells mark read run cs body) (rest : List Char) :
    read (body ++ mark :: mark :: mark :: '\n' :: rest) = some (cs, '\n' :: rest) := by
  induction h with
  | nil run => exact hread.close 0 (by omega) rest
  | unit hunit hd h ih =>
    rw [List.append_assoc]
    exact hunit.read_eq ih
  | mark hrun h ih =>
    cases h with
    | nil => exact hread.close 1 (by omega) rest
    | unit hunit hd h =>
      exact (hread.single _ _ hd).trans (congrArg (Option.map (before mark)) ih)
    | mark hrun' h =>
      cases h with
      | nil => exact hread.close 2 (by omega) rest
      | unit hunit hd h =>
        exact (hread.double _ _ hd).trans (congrArg (Option.map (before mark)) ih)
      | mark hrun'' h => omega

theorem endsTripled_basicLines? : EndsTripled quote (basicLines? false) where
  close n hn rest := by
    have : n = 0 ∨ n = 1 ∨ n = 2 := by omega
    rcases this with rfl | rfl | rfl <;> rfl
  single c rest hc := by
    rw [basicLines?]
    · simp [quote, isPlain, isBlank]
    all_goals simp_all [quote]
  double c rest hc := by
    rw [basicLines?]
    · simp [quote, isPlain, isBlank]
    all_goals simp_all [quote]

theorem endsTripled_literalLines? : EndsTripled apostrophe literalLines? where
  close n hn rest := by
    have : n = 0 ∨ n = 1 ∨ n = 2 := by omega
    rcases this with rfl | rfl | rfl <;> rfl
  single c rest hc := by
    rw [literalLines?]
    · simp [apostrophe, isPlain]
    all_goals simp_all [apostrophe]
  double c rest hc := by
    rw [literalLines?]
    · simp [apostrophe, isPlain]
    all_goals simp_all [apostrophe]

theorem exists_escape_eq {c : Char} (hquote : c ≠ quote) :
    ∃ d unit, (Sections.escape? c).getD [c] = d :: unit ∧ d ≠ quote ∧ d ≠ '\r' ∧
      (c ≠ '\n' → d ≠ '\n') := by
  unfold Sections.escape?
  split_ifs with hb ht hf hr
  case neg => exact ⟨c, [], rfl, hquote, hr, id⟩
  all_goals exact ⟨'\\', _, rfl, by decide, by decide, fun _ => by decide⟩

theorem spells_escaped (cs : List Char) (run : Nat) :
    Spells quote (basicLines? false) run cs (escaped true run cs) := by
  induction cs generalizing run with
  | nil => exact .nil run
  | cons c cs ih =>
    by_cases hquote : c = quote
    · subst hquote
      by_cases hrun : run < 2
      · rw [escaped, if_pos rfl, if_pos (by simpa using hrun)]
        exact .mark hrun (ih _)
      · rw [escaped, if_pos rfl, if_neg (by simpa using hrun)]
        exact .unit (readsEscapes_basicLines?.letter quote quote rfl) (by decide) (ih 0)
    · have htakes : Takes (basicLines? false) c ((Sections.escape? c).getD [c]) := by
        by_cases hn : c = '\n'
        · subst hn
          exact fun _ => rfl
        · exact readsEscapes_basicLines?.takes hquote hn
      obtain ⟨d, unit, hunit, hd, -⟩ := exists_escape_eq hquote
      rw [escaped, if_neg hquote, if_neg (by simp), hunit]
      exact .unit (hunit ▸ htakes) hd (ih 0)

theorem le_longestRun (c : Char) (run : Nat) (cs : List Char) : run ≤ longestRun c run cs := by
  induction cs generalizing run with
  | nil => exact Nat.le_refl run
  | cons d cs ih =>
    rw [longestRun]
    split_ifs
    · exact (Nat.le_succ run).trans (ih _)
    · exact Nat.le_max_left _ _

theorem spells_literal {cs : List Char} (hcontrol : ∀ c ∈ cs, isControl c = false) {run : Nat}
    (hrun : longestRun apostrophe run cs ≤ 2) :
    Spells apostrophe literalLines? run cs cs := by
  induction cs generalizing run with
  | nil => exact .nil run
  | cons c cs ih =>
    rw [List.forall_mem_cons] at hcontrol
    rw [longestRun] at hrun
    split_ifs at hrun with hmark
    · subst hmark
      exact .mark ((le_longestRun _ _ _).trans hrun) (ih hcontrol.2 hrun)
    · have htakes : Takes literalLines? c [c] := by
        by_cases hn : c = '\n'
        · subst hn
          exact fun _ => rfl
        · have hplain := isPlain_of_not_isControl hcontrol.1 hn
          have hr := (ne_of_isPlain hplain).2
          intro rest
          rw [List.singleton_append, literalLines?]
          · simp [hplain]
          all_goals simp_all [apostrophe]
      exact .unit htakes hmark (ih hcontrol.2 ((Nat.le_max_right _ _).trans hrun))

/-! ### All forms -/

theorem text?_basic {tail : List Char} (h : ∀ rest, tail ≠ quote :: quote :: rest) :
    text? (quote :: tail) = basic? tail := by
  rw [quote, text?]
  exact fun rest he => h rest he

theorem text?_literal {tail : List Char} (h : ∀ rest, tail ≠ apostrophe :: apostrophe :: rest) :
    text? (apostrophe :: tail) = literal? tail := by
  rw [apostrophe, text?]
  exact fun rest he => h rest he

/-- The line end after three opening quotes is there if the text could be taken to begin with
one. -/
theorem afterOpening_gap {cs body : List Char}
    (h : '\n' ∉ cs → ∃ c rest, body = c :: rest ∧ c ≠ '\n' ∧ c ≠ '\r') :
    afterOpening ((if cs.contains '\n' then ['\n'] else []) ++ body) = body := by
  by_cases hn : '\n' ∈ cs
  · rw [if_pos (by simpa using hn)]
    rfl
  · rw [if_neg (by simpa using hn)]
    obtain ⟨c, rest, rfl, hc, hr⟩ := h hn
    rw [List.nil_append, afterOpening]
    all_goals simp_all

theorem exists_escaped_eq (tripled : Bool) (c : Char) (cs : List Char) :
    ∃ d rest, escaped tripled 0 (c :: cs) = d :: rest ∧ (tripled = false → d ≠ quote) ∧
      d ≠ '\r' ∧ (c ≠ '\n' → d ≠ '\n') := by
  by_cases hquote : c = quote
  · subst hquote
    cases tripled with
    | false => exact ⟨'\\', _, rfl, fun _ => by decide, by decide, fun _ => by decide⟩
    | true => exact ⟨quote, _, rfl, nofun, by decide, fun _ => by decide⟩
  · rw [escaped, if_neg hquote]
    split_ifs
    · exact ⟨'\\', _, rfl, fun _ => by decide, by decide, fun _ => by decide⟩
    · obtain ⟨d, unit, hunit, hd, hr, hn⟩ := exists_escape_eq hquote
      rw [hunit]
      exact ⟨d, _, rfl, fun _ => hd, hr, hn⟩

theorem text?_quoted_basic (cs rest : List Char) :
    text? (quote :: (escaped false 0 cs ++ quote :: '\n' :: rest)) = some (cs, '\n' :: rest) := by
  rw [text?_basic, basic?_escaped]
  intro more he
  cases cs with
  | nil => simp [escaped, quote] at he
  | cons c cs =>
    obtain ⟨d, unit, hunit, hd, -⟩ := exists_escaped_eq false c cs
    rw [hunit] at he
    exact hd rfl (List.cons.inj he).1

theorem text?_quoted_basicLines (cs rest : List Char) :
    text? (quote :: quote :: quote :: ((if cs.contains '\n' then ['\n'] else []) ++
      (escaped true 0 cs ++ quote :: quote :: quote :: '\n' :: rest))) =
        some (cs, '\n' :: rest) := by
  change basicLines? false (afterOpening _) = _
  rw [afterOpening_gap, (spells_escaped cs 0).read_eq endsTripled_basicLines?]
  intro hn
  cases cs with
  | nil => exact ⟨quote, _, rfl, by decide, by decide⟩
  | cons c cs =>
    obtain ⟨d, unit, hunit, -, hr, hd⟩ := exists_escaped_eq true c cs
    rw [hunit]
    exact ⟨d, _, rfl, hd fun he => hn (he ▸ List.mem_cons_self), hr⟩

theorem text?_quoted_literal {cs : List Char} (hcontrol : ∀ c ∈ cs, isControl c = false)
    (hn : '\n' ∉ cs) (hmark : apostrophe ∉ cs) (rest : List Char) :
    text? (apostrophe :: (cs ++ apostrophe :: '\n' :: rest)) = some (cs, '\n' :: rest) := by
  have hplain : ∀ c ∈ cs, isPlain c = true := fun c hc =>
    isPlain_of_not_isControl (hcontrol c hc) fun he => hn (he ▸ hc)
  rw [text?_literal, literal?_append hplain hmark]
  intro more he
  cases cs with
  | nil => simp [apostrophe] at he
  | cons c cs => exact hmark ((List.cons.inj he).1 ▸ List.mem_cons_self)

theorem text?_quoted_literalLines {cs : List Char} (hcontrol : ∀ c ∈ cs, isControl c = false)
    (hrun : longestRun apostrophe 0 cs ≤ 2) (rest : List Char) :
    text? (apostrophe :: apostrophe :: apostrophe ::
      ((if cs.contains '\n' then ['\n'] else []) ++
        (cs ++ apostrophe :: apostrophe :: apostrophe :: '\n' :: rest))) =
          some (cs, '\n' :: rest) := by
  change literalLines? (afterOpening _) = _
  rw [afterOpening_gap, (spells_literal hcontrol hrun).read_eq endsTripled_literalLines?]
  intro hn
  cases cs with
  | nil => exact ⟨apostrophe, _, rfl, by decide, by decide⟩
  | cons c cs =>
    have hcontrol : isControl c = false := hcontrol c List.mem_cons_self
    refine ⟨c, _, rfl, fun he => hn (he ▸ List.mem_cons_self), ?_⟩
    rintro rfl
    exact absurd hcontrol (by decide)

theorem formOf_eq_literal {cs : List Char} (h : formOf cs = .literal) :
    (∀ c ∈ cs, isControl c = false) ∧ '\n' ∉ cs ∧ apostrophe ∉ cs := by
  have hholds : Form.literal.holds cs = true := by
    unfold formOf at h
    split_ifs at h
    assumption
  simpa [Form.holds, Form.mark, Form.isTripled] using hholds

theorem formOf_eq_literalLines {cs : List Char} (h : formOf cs = .literalLines) :
    (∀ c ∈ cs, isControl c = false) ∧ longestRun apostrophe 0 cs ≤ 2 := by
  have hholds : Form.literalLines.holds cs = true := by
    unfold formOf at h
    split_ifs at h
    assumption
  rw [Form.holds, Bool.and_eq_true, Bool.and_eq_true] at hholds
  obtain ⟨⟨hcontrol, -⟩, hrun⟩ := hholds
  exact ⟨by simpa using hcontrol, of_decide_eq_true hrun⟩

/-- A text is read as it was written. -/
theorem text?_quoted (cs rest : List Char) :
    text? (quoted cs ++ '\n' :: rest) = some (cs, '\n' :: rest) := by
  have hmark : apostrophe ≠ quote := by decide
  rw [quoted]
  cases hform : formOf cs with
  | basic => simpa [Form.quotes, Form.isTripled, Form.mark] using text?_quoted_basic cs rest
  | basicLines =>
    simpa [Form.quotes, Form.isTripled, Form.mark] using text?_quoted_basicLines cs rest
  | literal =>
    obtain ⟨hcontrol, hn, hnone⟩ := formOf_eq_literal hform
    simpa [Form.quotes, Form.isTripled, Form.mark, hmark] using
      text?_quoted_literal hcontrol hn hnone rest
  | literalLines =>
    obtain ⟨hcontrol, hrun⟩ := formOf_eq_literalLines hform
    simpa [Form.quotes, Form.isTripled, Form.mark, hmark] using
      text?_quoted_literalLines hcontrol hrun rest

/-- What was written begins with a quote. -/
theorem exists_quoted_eq (cs : List Char) :
    ∃ mark rest, quoted cs = mark :: rest ∧ (mark = quote ∨ mark = apostrophe) := by
  rw [quoted]
  cases formOf cs
  · exact ⟨quote, _, rfl, Or.inl rfl⟩
  · exact ⟨apostrophe, _, rfl, Or.inr rfl⟩
  · exact ⟨quote, _, rfl, Or.inl rfl⟩
  · exact ⟨apostrophe, _, rfl, Or.inr rfl⟩

end Quoted

end ModelQuery.Sections
