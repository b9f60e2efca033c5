import ModelQuery.Filter.Compile
import ModelQuery.Proofs.Text.Trimming

/-! Markers as they may be written. The scanner sees a marker exactly where one is written, and the
letters between its bar and its semicolon read as the same joiner when they are a field. -/

namespace ModelQuery

namespace Text

theorem isAlpha_of_isAlpha_toLower {c : Char} (h : c.toLower.isAlpha = true) :
    c.isAlpha = true := by
  by_cases hu : c.isUpper = true
  · show (c.isUpper || c.isLower) = true
    rw [hu, Bool.true_or]
  · have he : c.toLower = c := dif_neg fun hr => hu (decide_eq_true hr)
    rwa [he] at h

theorem isBlank_of_isAlpha {c : Char} (h : c.isAlpha = true) : isBlank c = false := by
  have hn : 65 ≤ c.toNat ∧ c.toNat ≤ 122 := by
    rcases (Bool.or_eq_true _ _).mp h with hu | hl
    · obtain ⟨hlow, hhigh⟩ := of_decide_eq_true hu
      have h1 := UInt32.le_iff_toNat_le.mp hlow
      have h2 := UInt32.le_iff_toNat_le.mp hhigh
      simp only [Char.toNat_val, Char.reduceVal, UInt32.reduceToNat] at h1 h2
      omega
    · obtain ⟨hlow, hhigh⟩ := (Bool.and_eq_true _ _).mp hl
      have h1 := UInt32.le_iff_toNat_le.mp (of_decide_eq_true hlow)
      have h2 := UInt32.le_iff_toNat_le.mp (of_decide_eq_true hhigh)
      simp only [Char.toNat_val, Char.reduceVal, UInt32.reduceToNat] at h1 h2
      omega
  simp [isBlank]
  omega

end Text

namespace Route

theorem isParenthesis_iff {c : Char} : isParenthesis c = true ↔ c = '(' ∨ c = ')' := by
  simp [isParenthesis]

theorem isParenthesis_of_isBlank {c : Char} (h : Text.isBlank c = true) :
    isParenthesis c = false := by
  refine Bool.eq_false_iff.mpr fun hp => ?_
  rcases isParenthesis_iff.mp hp with rfl | rfl <;> exact absurd h (by decide)

theorem isParenthesis_of_isAlpha {c : Char} (h : c.isAlpha = true) : isParenthesis c = false := by
  refine Bool.eq_false_iff.mpr fun hp => ?_
  rcases isParenthesis_iff.mp hp with rfl | rfl <;> exact absurd h (by decide)

theorem no_parenthesis_iff {text : List Char} :
    (∀ c ∈ text, isParenthesis c = false) ↔ text.any isParenthesis = false := by
  simp

end Route

namespace Joiner

theorem isAlpha_of_ofLetters? {letters : List Char} {joiner : Joiner}
    (h : ofLetters? letters = some joiner) : ∀ c ∈ letters, c.isAlpha = true := by
  have hword : ∃ word : List Char, Text.asciiLower letters = word ∧
      ∀ c ∈ word, c.isAlpha = true := by
    unfold ofLetters? at h
    split at h
    · next hs => exact ⟨_, Text.sameLetters_iff.mp hs, List.all_eq_true.mp (by decide)⟩
    · split at h
      · next hs => exact ⟨_, Text.sameLetters_iff.mp hs, List.all_eq_true.mp (by decide)⟩
      · cases h
  obtain ⟨word, he, hw⟩ := hword
  intro c hc
  have hm : c.toLower ∈ Text.asciiLower letters := List.mem_map_of_mem hc
  rw [he] at hm
  exact Text.isAlpha_of_isAlpha_toLower (hw _ hm)

theorem ne_blank_of_ofLetters? {letters : List Char} {joiner : Joiner}
    (h : ofLetters? letters = some joiner) : joiner ≠ blank := by
  unfold ofLetters? at h
  split at h
  · cases h
    decide
  · split at h
    · cases h
      decide
    · cases h

theorem ofField_ne_blank (field : List Char) : ofField field ≠ blank := by
  unfold ofField
  cases h : ofKeyword? field with
  | none => decide
  | some joiner => exact ne_blank_of_ofLetters? h

theorem not_mem_letters {letters : List Char} {joiner : Joiner}
    (h : ofLetters? letters = some joiner) {c : Char} (hc : c.isAlpha = false) : c ∉ letters := by
  intro hm
  simp [isAlpha_of_ofLetters? h c hm] at hc

theorem trim_letters {letters : List Char} {joiner : Joiner}
    (h : ofLetters? letters = some joiner) : Text.trim letters = letters := by
  have hb : ∀ c ∈ letters, Text.isBlank c = false := fun c hc =>
    Text.isBlank_of_isAlpha (isAlpha_of_ofLetters? h c hc)
  exact Text.trim_eq_self (fun c hc => hb c (List.mem_of_mem_head? hc))
    (fun c hc => hb c (List.mem_of_mem_getLast? hc))

theorem ofField_letters {letters : List Char} {joiner : Joiner}
    (h : ofLetters? letters = some joiner) : ofField letters = joiner := by
  simp [ofField, ofKeyword?, trim_letters h, h]

theorem ofLetters?_word {joiner : Joiner} (h : joiner ≠ blank) :
    ofLetters? joiner.word.toList = some joiner := by
  cases joiner with
  | and => decide
  | or => decide
  | blank => exact absurd rfl h

/-- A text is a marker of this joiner: a bar, its letters in any case, and a semicolon. -/
def Marks (joiner : Joiner) (mark : List Char) : Prop :=
  ∃ letters, ofLetters? letters = some joiner ∧ mark = '|' :: (letters ++ [';'])

theorem marks_word {joiner : Joiner} (h : joiner ≠ blank) :
    joiner.Marks ('|' :: (joiner.word.toList ++ [';'])) :=
  ⟨_, ofLetters?_word h, rfl⟩

/-- A marker is cut at its own semicolon and nowhere else. -/
theorem Marks.exists_letters {joiner : Joiner} {mark : List Char} (h : joiner.Marks mark) :
    ∃ letters, ofLetters? letters = some joiner ∧ ';' ∉ '|' :: letters ∧
      mark = ('|' :: letters) ++ [';'] := by
  obtain ⟨letters, hl, rfl⟩ := h
  exact ⟨letters, hl, by simp [not_mem_letters hl (show (';').isAlpha = false by decide)], rfl⟩

theorem Marks.ne_blank {joiner : Joiner} {mark : List Char} (h : joiner.Marks mark) :
    joiner ≠ blank := by
  obtain ⟨letters, hl, -⟩ := h
  exact ne_blank_of_ofLetters? hl

theorem Marks.length_pos {joiner : Joiner} {mark : List Char} (h : joiner.Marks mark) :
    0 < mark.length := by
  obtain ⟨letters, -, rfl⟩ := h
  simp

theorem Marks.no_parenthesis {joiner : Joiner} {mark : List Char} (h : joiner.Marks mark) :
    ∀ c ∈ mark, Route.isParenthesis c = false := by
  obtain ⟨letters, hl, rfl⟩ := h
  intro c hc
  simp only [List.mem_cons, List.mem_append] at hc
  rcases hc with rfl | hc | rfl | hc
  · rfl
  · exact Route.isParenthesis_of_isAlpha (isAlpha_of_ofLetters? hl c hc)
  · rfl
  · cases hc

/-- Cut in two, a marker begins with its bar and letters and ends with letters and its
semicolon. -/
theorem Marks.mem_parts {joiner : Joiner} {front back : List Char}
    (h : joiner.Marks (front ++ back)) (hfront : front ≠ []) (hback : back ≠ []) :
    (∀ c ∈ front, c = '|' ∨ c.isAlpha = true) ∧ ∀ c ∈ back, c.isAlpha = true ∨ c = ';' := by
  obtain ⟨letters, hl, he⟩ := h
  have hletters := isAlpha_of_ofLetters? hl
  obtain ⟨b, front, rfl⟩ := List.exists_cons_of_ne_nil hfront
  simp only [List.cons_append, List.cons.injEq] at he
  obtain ⟨rfl, he⟩ := he
  constructor
  · have hl : front ++ back.dropLast = letters := by
      have hd := congrArg List.dropLast he
      rwa [List.dropLast_append_of_ne_nil hback, List.dropLast_concat] at hd
    intro c hc
    rcases List.mem_cons.mp hc with rfl | hc
    · exact Or.inl rfl
    · exact Or.inr (hletters c (hl ▸ List.mem_append_left _ hc))
  · intro c hc
    have hm : c ∈ letters ++ [';'] := he ▸ List.mem_append_right _ hc
    rcases List.mem_append.mp hm with hm | hm
    · exact Or.inl (hletters c hm)
    · exact Or.inr (List.mem_singleton.mp hm)

end Joiner

namespace Scan

theorem marker?_mark {joiner : Joiner} {mark : List Char} (h : joiner.Marks mark)
    (rest : List Char) : marker? (mark ++ rest) = some (joiner, mark.length) := by
  obtain ⟨letters, hl, rfl⟩ := h
  have ht : (letters ++ ';' :: rest).takeWhile Char.isAlpha = letters := by
    rw [List.takeWhile_append_of_pos (Joiner.isAlpha_of_ofLetters? hl)]
    simp
  simp [marker?, ht, hl]

theorem exists_mark_of_marker? {cs : List Char} {joiner : Joiner} {length : Nat}
    (h : marker? cs = some (joiner, length)) :
    ∃ mark rest, joiner.Marks mark ∧ cs = mark ++ rest ∧ length = mark.length := by
  cases cs with
  | nil => simp [marker?] at h
  | cons c cs =>
    by_cases hc : c = '|'
    · subst c
      simp only [marker?] at h
      split at h
      · next hs =>
        obtain ⟨j, hl, he⟩ := Option.map_eq_some_iff.mp h
        simp only [Prod.mk.injEq] at he
        obtain ⟨rfl, rfl⟩ := he
        obtain ⟨rest, hr⟩ := List.head?_eq_some_iff.mp hs
        refine ⟨_, rest, ⟨_, hl, rfl⟩, ?_, by simp⟩
        have hcs := List.prefix_iff_eq_append.mp (List.takeWhile_prefix Char.isAlpha (l := cs))
        rw [hr] at hcs
        simpa using hcs.symm
      · cases h
    · simp [marker?, hc] at h

end Scan

end ModelQuery
