import ModelQuery.Text.Lowercase

/-! The lower case of a part of a text. Within the text a part is lowered as it is by itself, but for
its capital sigmas: the lower case of a sigma tells whether a word ends with it, and a word that ends
with the part may go on behind it. -/

namespace ModelQuery.Text

/-- The lower case of a text that stands between two others. What is in front is given last character
first. -/
def lowercaseBetween (before text after : List Char) : List Char :=
  match text with
  | [] => []
  | c :: cs =>
    (if c = 'Σ' then [lowerSigma before (cs ++ after)] else lowerOne c) ++
      lowercaseBetween (c :: before) cs after

theorem lowercaseAfter_append (before part back : List Char) :
    lowercaseAfter before (part ++ back) =
      lowercaseBetween before part back ++ lowercaseAfter (part.reverse ++ before) back := by
  induction part generalizing before with
  | nil => rfl
  | cons c part ih => simp [lowercaseAfter, lowercaseBetween, ih]

theorem lowercase_eq (text : List Char) : lowercase text = lowercaseBetween [] text [] := by
  have happend := lowercaseAfter_append [] text []
  rwa [List.append_nil, lowercaseAfter, List.append_nil] at happend

theorem lowercase_parts (front part back : List Char) :
    lowercase (front ++ part ++ back) = lowercaseBetween [] front (part ++ back) ++
      (lowercaseBetween front.reverse part back ++
        lowercaseAfter (part.reverse ++ front.reverse) back) := by
  rw [lowercase, List.append_assoc, lowercaseAfter_append, lowercaseAfter_append, List.append_nil]

theorem length_lowercaseBetween (before before' text after after' : List Char) :
    (lowercaseBetween before text after).length = (lowercaseBetween before' text after').length := by
  induction text generalizing before before' with
  | nil => rfl
  | cons c cs ih =>
    have hrest := ih (c :: before) (c :: before')
    simp only [lowercaseBetween, List.length_append, hrest]
    split <;> rfl

/-- Two places give a text the same lower case if they do so for each of its sigmas. -/
theorem lowercaseBetween_eq_iff {before before' text after after' : List Char} :
    lowercaseBetween before text after = lowercaseBetween before' text after' ↔
      ∀ front back, text = front ++ 'Σ' :: back →
        lowerSigma (front.reverse ++ before) (back ++ after) =
          lowerSigma (front.reverse ++ before') (back ++ after') := by
  induction text generalizing before before' with
  | nil => simp [lowercaseBetween]
  | cons c cs ih =>
    have hfirst : (if c = 'Σ' then [lowerSigma before (cs ++ after)] else lowerOne c) =
        (if c = 'Σ' then [lowerSigma before' (cs ++ after')] else lowerOne c) ↔
        (c = 'Σ' → lowerSigma before (cs ++ after) = lowerSigma before' (cs ++ after')) := by
      by_cases hc : c = 'Σ' <;> simp [hc]
    -- either sigma is one character, so that the lower cases are equal only if they are so from here on
    have hlength : (if c = 'Σ' then [lowerSigma before (cs ++ after)] else lowerOne c).length =
        (if c = 'Σ' then [lowerSigma before' (cs ++ after')] else lowerOne c).length := by
      split <;> rfl
    rw [lowercaseBetween, lowercaseBetween, List.append_eq_append_iff_of_size_eq_left hlength,
      hfirst, ih]
    constructor
    · rintro ⟨hsigma, hrest⟩ front back hsplit
      cases front with
      | nil =>
        obtain ⟨hc, rfl⟩ := List.cons.inj hsplit
        exact hsigma hc
      | cons d front =>
        obtain ⟨rfl, hcs⟩ := List.cons.inj hsplit
        simpa using hrest front back hcs
    · intro h
      refine ⟨fun hc => h [] cs (by rw [hc]; rfl), fun front back hcs => ?_⟩
      simpa using h (c :: front) back (by rw [hcs]; rfl)

/-- Whether each capital sigma of a part has the same lower case with and without what stands around
the part. -/
def KeepsSigmas (front part back : List Char) : Prop :=
  ∀ before after, part = before ++ 'Σ' :: after →
    lowerSigma (front ++ before).reverse (after ++ back) = lowerSigma before.reverse after

theorem keepsSigmas_iff {front part back : List Char} : KeepsSigmas front part back ↔
    lowercaseBetween front.reverse part back = lowercase part := by
  simp [KeepsSigmas, lowercase_eq, lowercaseBetween_eq_iff]

theorem keepsSigmas_of_not_mem {part : List Char} (h : 'Σ' ∉ part) (front back : List Char) :
    KeepsSigmas front part back := by
  rintro before after rfl
  simp at h

theorem keepsSigmas_alone (part : List Char) : KeepsSigmas [] part [] := by
  intro before after _
  simp

theorem lowercase_infix_of_keepsSigmas {front part back : List Char} (h : KeepsSigmas front part back) :
    lowercase part <:+: lowercase (front ++ part ++ back) := by
  rw [lowercase_parts, keepsSigmas_iff.mp h]
  exact ⟨_, _, List.append_assoc ..⟩

theorem length_lowercase (before part after : List Char) :
    (lowercase part).length = (lowercaseBetween before part after).length := by
  rw [lowercase_eq, length_lowercaseBetween]

theorem lowercase_prefix_iff {part back : List Char} :
    lowercase part <+: lowercase (part ++ back) ↔ KeepsSigmas [] part back := by
  have hparts : lowercase (part ++ back) =
      lowercaseBetween [] part back ++ lowercaseAfter part.reverse back := by
    simpa [lowercaseBetween] using lowercase_parts [] part back
  have hlength := length_lowercase [] part back
  rw [hparts, keepsSigmas_iff]
  constructor
  · intro h
    have hfront := List.prefix_of_prefix_length_le h (List.prefix_append _ _) (Nat.le_of_eq hlength)
    exact (hfront.eq_of_length hlength).symm
  · intro h
    exact h ▸ List.prefix_append _ _

theorem lowercase_suffix_iff {front part : List Char} :
    lowercase part <:+ lowercase (front ++ part) ↔ KeepsSigmas front part [] := by
  have hparts : lowercase (front ++ part) =
      lowercaseBetween [] front part ++ lowercaseBetween front.reverse part [] := by
    simpa [lowercaseAfter] using lowercase_parts front part []
  have hlength := length_lowercase front.reverse part []
  rw [hparts, keepsSigmas_iff]
  constructor
  · intro h
    have hback := List.suffix_of_suffix_length_le h (List.suffix_append _ _) (Nat.le_of_eq hlength)
    exact (hback.eq_of_length hlength).symm
  · intro h
    exact h ▸ List.suffix_append _ _

end ModelQuery.Text
