import Mathlib.Data.List.DropRight
import Mathlib.Data.List.TakeWhile
import ModelQuery.Text.Blank

/-! Trimming is blind to blanks at the ends of a text. What it leaves is a part of the text that
neither begins nor ends with a blank. -/

namespace ModelQuery.Text

theorem trimEnd_eq_rdropWhile (cs : List Char) : trimEnd cs = cs.rdropWhile isBlank := rfl

theorem trimStart_blank_append {blanks : List Char} (h : ∀ c ∈ blanks, isBlank c = true)
    (cs : List Char) : trimStart (blanks ++ cs) = trimStart cs :=
  List.dropWhile_append_of_pos h

theorem trimEnd_append_blank {blanks : List Char} (h : ∀ c ∈ blanks, isBlank c = true)
    (cs : List Char) : trimEnd (cs ++ blanks) = trimEnd cs := by
  have hr : ∀ c ∈ blanks.reverse, isBlank c = true := fun c hc => h c (List.mem_reverse.mp hc)
  simp only [trimEnd, List.reverse_append, List.dropWhile_append_of_pos hr]

theorem trimStart_eq_nil_iff {cs : List Char} :
    trimStart cs = [] ↔ ∀ c ∈ cs, isBlank c = true :=
  List.dropWhile_eq_nil_iff

theorem trim_blank_append {blanks : List Char} (h : ∀ c ∈ blanks, isBlank c = true)
    (cs : List Char) : trim (blanks ++ cs) = trim cs := by
  simp only [trim, trimStart_blank_append h]

theorem trim_append_blank {blanks : List Char} (h : ∀ c ∈ blanks, isBlank c = true)
    (cs : List Char) : trim (cs ++ blanks) = trim cs := by
  by_cases hc : trimStart cs = []
  · have hb : trimStart blanks = [] := trimStart_eq_nil_iff.mpr h
    simp only [trim, trimStart_blank_append (trimStart_eq_nil_iff.mp hc), hb, hc]
  · have hs : trimStart (cs ++ blanks) = trimStart cs ++ blanks := by
      have hne : ((List.dropWhile isBlank cs).isEmpty) = false := by simpa [trimStart] using hc
      simp only [trimStart, List.dropWhile_append, hne, Bool.false_eq_true, if_false]
    simp only [trim, hs, trimEnd_append_blank h]

theorem exists_leading_trim (cs : List Char) : ∃ back,
    cs = cs.takeWhile isBlank ++ (trim cs ++ back) ∧ ∀ c ∈ back, isBlank c = true := by
  refine ⟨((trimStart cs).reverse.takeWhile isBlank).reverse, ?_,
    fun c hc => List.mem_takeWhile_imp (List.mem_reverse.mp hc)⟩
  have he : trim cs ++ ((trimStart cs).reverse.takeWhile isBlank).reverse = trimStart cs := by
    rw [trim, trimEnd, ← List.reverse_append, List.takeWhile_append_dropWhile,
      List.reverse_reverse]
  rw [he, trimStart, List.takeWhile_append_dropWhile]

/-- A text is its trimmed part with blanks on either side. -/
theorem exists_trim (cs : List Char) : ∃ front back, cs = front ++ (trim cs ++ back) ∧
    (∀ c ∈ front, isBlank c = true) ∧ ∀ c ∈ back, isBlank c = true := by
  obtain ⟨back, he, hback⟩ := exists_leading_trim cs
  exact ⟨cs.takeWhile isBlank, back, he, fun c hc => List.mem_takeWhile_imp hc, hback⟩

/-- A text that begins with no blank is its trimmed part with blanks behind. -/
theorem exists_trim_append {cs : List Char} (h : ∀ c ∈ cs.head?, isBlank c = false) :
    ∃ back, cs = trim cs ++ back ∧ ∀ c ∈ back, isBlank c = true := by
  obtain ⟨front, back, he, hf, hb⟩ := exists_trim cs
  cases front with
  | nil => exact ⟨back, he, hb⟩
  | cons c front =>
    have hc := h c (by rw [he]; rfl)
    rw [hf c (List.mem_cons_self ..)] at hc
    cases hc

theorem trim_eq_nil_iff {cs : List Char} : trim cs = [] ↔ ∀ c ∈ cs, isBlank c = true := by
  constructor
  · intro h
    obtain ⟨front, back, he, hf, hb⟩ := exists_trim cs
    rw [he, h]
    intro c hc
    rcases List.mem_append.mp hc with hc | hc
    · exact hf c hc
    · exact hb c hc
  · intro h
    rw [trim, trimStart_eq_nil_iff.mpr h]
    rfl

@[simp] theorem trim_trim (cs : List Char) : trim (trim cs) = trim cs := by
  obtain ⟨front, back, he, hf, hb⟩ := exists_trim cs
  conv_rhs => rw [he]
  rw [trim_blank_append hf, trim_append_blank hb]

theorem mem_of_mem_trim {c : Char} {cs : List Char} (h : c ∈ trim cs) : c ∈ cs := by
  obtain ⟨front, back, he, -, -⟩ := exists_trim cs
  rw [he]
  simp [h]

theorem isBlank_getLast_trim {cs : List Char} (hne : trim cs ≠ []) :
    isBlank ((trim cs).getLast hne) = false :=
  Bool.eq_false_iff.mpr (List.rdropWhile_last_not isBlank (trimStart cs) hne)

/-- Trimming leaves a text alone that has no blanks to lose at its ends. -/
theorem trim_eq_self {cs : List Char} (hhead : ∀ c ∈ cs.head?, isBlank c = false)
    (hlast : ∀ c ∈ cs.getLast?, isBlank c = false) : trim cs = cs := by
  have hs : trimStart cs = cs := by
    cases cs with
    | nil => rfl
    | cons c cs => simp [trimStart, hhead c (by simp)]
  rw [trim, hs, trimEnd_eq_rdropWhile, List.rdropWhile_eq_self_iff]
  intro hne
  simp [hlast _ (List.getLast?_eq_getLast_of_ne_nil hne)]

theorem mem_of_head?_trimStart {c : Char} {cs : List Char} (h : (trimStart cs).head? = some c) :
    c ∈ cs :=
  (List.dropWhile_suffix _).subset (List.mem_of_mem_head? h)

theorem head?_trimStart_append {c : Char} {cs : List Char} (h : (trimStart cs).head? = some c)
    (rest : List Char) : (trimStart (cs ++ rest)).head? = some c := by
  obtain ⟨after, ha⟩ := List.head?_eq_some_iff.mp h
  simp only [trimStart] at ha ⊢
  simp [List.dropWhile_append, ha]

theorem blank_of_head?_trimStart {c : Char} {cs rest : List Char}
    (h : (trimStart (cs ++ rest)).head? = some c) (hc : c ∉ cs) :
    ∀ d ∈ cs, isBlank d = true := by
  induction cs with
  | nil => simp
  | cons d cs ih =>
    simp only [List.mem_cons, not_or] at hc
    by_cases hd : isBlank d = true
    · have hi := ih (by simpa [trimStart, hd] using h) hc.2
      simpa [hd] using hi
    · simp only [trimStart, List.cons_append, List.dropWhile_cons_of_neg hd, List.head?_cons,
        Option.some.injEq] at h
      exact absurd h.symm hc.1

theorem leadingBlanks_append_of_exists {cs : List Char} (h : ∃ c ∈ cs, isBlank c = false)
    (rest : List Char) : leadingBlanks (cs ++ rest) = leadingBlanks cs := by
  obtain ⟨c, hc, hb⟩ := h
  have hne : (cs.takeWhile isBlank).length ≠ cs.length := by
    intro he
    have hall := List.takeWhile_eq_self_iff.mp
      ((List.takeWhile_prefix isBlank).eq_of_length he) c hc
    simp [hb] at hall
  simp only [leadingBlanks, List.takeWhile_append, if_neg hne]

theorem leadingBlanks_cons {c : Char} (h : isBlank c = true) (cs : List Char) :
    leadingBlanks (c :: cs) = leadingBlanks cs + 1 := by
  simp [leadingBlanks, h]

end ModelQuery.Text
