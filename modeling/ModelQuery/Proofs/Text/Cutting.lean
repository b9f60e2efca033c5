import ModelQuery.Proofs.Text.Trimming
import ModelQuery.Text.Pieces

/-! Cutting a text at a separator takes it apart from left to right, so what holds of every text
without separators, and of a text with one more piece in front, holds of all texts. -/

namespace ModelQuery.Text

variable {separator : Char}

theorem pieces_append_separator (a b : List Char) :
    pieces separator (a ++ separator :: b) = pieces separator a ++ pieces separator b := by
  induction a with
  | nil => simp [pieces]
  | cons c a ih =>
    by_cases h : c = separator
    · simp [pieces, h, ih]
    · obtain ⟨piece, rest, hp⟩ := List.exists_cons_of_ne_nil (pieces_ne_nil separator a)
      simp [pieces, h, ih, hp]

theorem pieces_of_not_mem {cs : List Char} (h : separator ∉ cs) : pieces separator cs = [cs] := by
  induction cs with
  | nil => rfl
  | cons c cs ih =>
    simp only [List.mem_cons, not_or] at h
    simp [pieces, ih h.2, Ne.symm h.1]

theorem pieces_cut {piece : List Char} (h : separator ∉ piece) (rest : List Char) :
    pieces separator (piece ++ separator :: rest) = piece :: pieces separator rest := by
  rw [pieces_append_separator, pieces_of_not_mem h, List.singleton_append]

/-- A text has one first piece and one rest. -/
theorem append_separator_inj {a b : List Char} (ha : separator ∉ a) (hb : separator ∉ b)
    {rest rest' : List Char} (h : a ++ separator :: rest = b ++ separator :: rest') :
    a = b ∧ rest = rest' := by
  rcases List.append_eq_append_iff.mp h with ⟨more, rfl, hmore⟩ | ⟨more, rfl, hmore⟩
  all_goals
    cases more with
    | nil => exact ⟨by simp, by simpa using h⟩
    | cons c more =>
      obtain ⟨rfl, -⟩ := List.cons.inj hmore
      simp at ha hb

theorem all_ne_of_not_mem {cs : List Char} (h : separator ∉ cs) :
    ∀ c ∈ cs, decide (c ≠ separator) = true := by
  intro c hc
  have hne : c ≠ separator := fun he => h (he ▸ hc)
  simpa using hne

/-- A text without separators is one piece, and any other text has a first piece, a separator and
a rest. -/
theorem cut_induction (separator : Char) {motive : List Char → Prop}
    (whole : ∀ piece, separator ∉ piece → motive piece)
    (cut : ∀ piece rest, separator ∉ piece → motive rest → motive (piece ++ separator :: rest))
    (cs : List Char) : motive cs := by
  induction hn : cs.length using Nat.strong_induction_on generalizing cs with
  | _ n ih =>
    by_cases h : separator ∈ cs
    · obtain ⟨piece, rest, rfl, hp⟩ := List.eq_append_cons_of_mem h
      have hlt : rest.length < n := by
        simp only [List.length_append, List.length_cons] at hn
        omega
      exact cut piece rest hp (ih _ hlt rest rfl)
    · exact whole cs h

/-- Nothing stands behind the last separator if that ends the text. -/
theorem getLast?_pieces {cs : List Char}
    (h : (pieces separator cs).getLast? = some []) : cs = [] ∨ [separator] <:+ cs := by
  induction cs using cut_induction separator with
  | whole piece hp =>
    rw [pieces_of_not_mem hp] at h
    exact Or.inl (Option.some.inj h)
  | cut piece rest hp ih =>
    obtain ⟨next, more, hrest⟩ :=
      List.exists_cons_of_ne_nil (pieces_ne_nil separator rest)
    rw [pieces_cut hp, hrest, List.getLast?_cons_cons, ← hrest] at h
    right
    rcases ih h with rfl | hsuffix
    · exact List.suffix_append piece [separator]
    · exact hsuffix.trans ((List.suffix_cons _ _).trans (List.suffix_append _ _))

theorem mem_of_mem_pieces {c : Char} {cs piece : List Char} (hp : piece ∈ pieces separator cs)
    (hc : c ∈ piece) : c ∈ cs ∧ c ≠ separator := by
  have hwhole : ∀ whole : List Char, separator ∉ whole → c ∈ whole → c ≠ separator :=
    fun whole hw hm he => hw (he ▸ hm)
  induction cs using cut_induction separator with
  | whole whole hw =>
    rw [pieces_of_not_mem hw, List.mem_singleton] at hp
    subst hp
    exact ⟨hc, hwhole _ hw hc⟩
  | cut first rest hf ih =>
    rw [pieces_cut hf, List.mem_cons] at hp
    rcases hp with rfl | hp
    · exact ⟨List.mem_append_left _ hc, hwhole _ hf hc⟩
    · obtain ⟨hm, hne⟩ := ih hp
      exact ⟨List.mem_append_right _ (List.mem_cons_of_mem _ hm), hne⟩

theorem map_trim_pieces_blank_append {blanks : List Char} (h : ∀ c ∈ blanks, isBlank c = true)
    (hs : isBlank separator = false) (cs : List Char) :
    (pieces separator (blanks ++ cs)).map trim = (pieces separator cs).map trim := by
  have hb : separator ∉ blanks := fun hm => by simp [h _ hm] at hs
  induction cs using cut_induction separator with
  | whole piece hp =>
    rw [pieces_of_not_mem hp, pieces_of_not_mem (by simp [hb, hp])]
    simp [trim_blank_append h]
  | cut piece rest hp =>
    rw [← List.append_assoc, pieces_cut hp, pieces_cut (by simp [hb, hp])]
    simp [trim_blank_append h]

theorem map_trim_pieces_append_blank {blanks : List Char} (h : ∀ c ∈ blanks, isBlank c = true)
    (hs : isBlank separator = false) (cs : List Char) :
    (pieces separator (cs ++ blanks)).map trim = (pieces separator cs).map trim := by
  have hb : separator ∉ blanks := fun hm => by simp [h _ hm] at hs
  induction cs using cut_induction separator with
  | whole piece hp =>
    rw [pieces_of_not_mem hp, pieces_of_not_mem (by simp [hb, hp])]
    simp [trim_append_blank h]
  | cut piece rest hp ih =>
    rw [List.append_assoc, List.cons_append, pieces_cut hp, pieces_cut hp]
    simp [ih]

end ModelQuery.Text
