import ModelQuery.Proofs.Text.Trimming
import ModelQuery.Text.LetterCase
import ModelQuery.Text.Lowercase
import ModelQuery.Text.Pieces

/-! Texts without regard to the case of the letters `A` to `Z`. Lowering these letters changes
nothing in how a text is trimmed and cut, and it is the first half of lowering all letters. -/

namespace ModelQuery.Text

def capitals : List Char :=
  ['A', 'B', 'C', 'D', 'E', 'F', 'G', 'H', 'I', 'J', 'K', 'L', 'M', 'N', 'O', 'P', 'Q', 'R', 'S',
    'T', 'U', 'V', 'W', 'X', 'Y', 'Z']

def smallLetters : List Char :=
  ['a', 'b', 'c', 'd', 'e', 'f', 'g', 'h', 'i', 'j', 'k', 'l', 'm', 'n', 'o', 'p', 'q', 'r', 's',
    't', 'u', 'v', 'w', 'x', 'y', 'z']

theorem map_toLower_capitals : capitals.map Char.toLower = smallLetters := by decide

theorem mem_capitals_of_isUpper {c : Char} (h : c.isUpper = true) : c ∈ capitals := by
  obtain ⟨hlow, hhigh⟩ := of_decide_eq_true h
  have h1 := UInt32.le_iff_toNat_le.mp hlow
  have h2 := UInt32.le_iff_toNat_le.mp hhigh
  simp only [Char.toNat_val, Char.reduceVal, UInt32.reduceToNat] at h1 h2
  have hall : ∀ n, 65 ≤ n → n ≤ 90 → Char.ofNat n ∈ capitals := by decide
  have hc := hall c.toNat h1 h2
  rwa [Char.ofNat_toNat] at hc

theorem toLower_of_not_isUpper {c : Char} (h : ¬ c.isUpper = true) : c.toLower = c :=
  dif_neg fun hrange => h (decide_eq_true hrange)

/-- What is so of the capitals is so of every character, as no other one is lowered. -/
theorem apply_toLower {β : Type} (f : Char → β)
    (h : smallLetters.map f = capitals.map f) (c : Char) : f c.toLower = f c := by
  by_cases hu : c.isUpper = true
  · rw [← map_toLower_capitals, List.map_map] at h
    exact List.map_inj_left.mp h c (mem_capitals_of_isUpper hu)
  · rw [toLower_of_not_isUpper hu]

theorem toLower_toLower (c : Char) : c.toLower.toLower = c.toLower :=
  apply_toLower Char.toLower (by decide) c

/-- A character that is no letter comes from itself only. -/
theorem toLower_eq_iff {c d : Char} (hd : d.isAlpha = false) : c.toLower = d ↔ c = d := by
  by_cases hu : c.isUpper = true
  · have hc : c.isAlpha = true := Bool.or_eq_true_iff.mpr (Or.inl hu)
    refine iff_of_false (fun he => ?_) fun he => ?_
    · rw [← he, apply_toLower Char.isAlpha (by decide), hc] at hd
      cases hd
    · rw [← he, hc] at hd
      cases hd
  · rw [toLower_of_not_isUpper hu]

@[simp] theorem length_asciiLower (cs : List Char) : (asciiLower cs).length = cs.length :=
  List.length_map _

@[simp] theorem asciiLower_asciiLower (cs : List Char) :
    asciiLower (asciiLower cs) = asciiLower cs := by
  simp [asciiLower, toLower_toLower]

@[simp] theorem asciiLower_cons (c : Char) (cs : List Char) :
    asciiLower (c :: cs) = c.toLower :: asciiLower cs := rfl

@[simp] theorem asciiLower_nil : asciiLower [] = [] := rfl

theorem asciiLower_append (a b : List Char) :
    asciiLower (a ++ b) = asciiLower a ++ asciiLower b := List.map_append

theorem asciiLower_reverse (cs : List Char) : asciiLower cs.reverse = (asciiLower cs).reverse :=
  List.map_reverse

theorem drop_asciiLower (n : Nat) (cs : List Char) :
    (asciiLower cs).drop n = asciiLower (cs.drop n) :=
  List.map_drop.symm

theorem head?_asciiLower_iff {c : Char} (hc : c.isAlpha = false) (cs : List Char) :
    (asciiLower cs).head? = some c ↔ cs.head? = some c := by
  cases cs with
  | nil => simp
  | cons d cs => simp [toLower_eq_iff hc]

section Classes

variable {p : Char → Bool}

/-- A class of characters that does not depend on the case of a letter. -/
def Caseless (p : Char → Bool) : Prop :=
  ∀ c : Char, p c.toLower = p c

theorem Caseless.takeWhile (h : Caseless p) (cs : List Char) :
    (asciiLower cs).takeWhile p = asciiLower (cs.takeWhile p) := by
  rw [asciiLower, List.takeWhile_map, show p ∘ Char.toLower = p from funext h, asciiLower]

theorem Caseless.dropWhile (h : Caseless p) (cs : List Char) :
    (asciiLower cs).dropWhile p = asciiLower (cs.dropWhile p) := by
  rw [asciiLower, List.dropWhile_map, show p ∘ Char.toLower = p from funext h, asciiLower]

theorem Caseless.all (h : Caseless p) (cs : List Char) : (asciiLower cs).all p = cs.all p := by
  rw [asciiLower, List.all_map, show p ∘ Char.toLower = p from funext h]

theorem Caseless.any (h : Caseless p) (cs : List Char) : (asciiLower cs).any p = cs.any p := by
  rw [asciiLower, List.any_map, show p ∘ Char.toLower = p from funext h]

theorem caseless_isBlank : Caseless isBlank := apply_toLower _ (by decide)

theorem caseless_isAlpha : Caseless Char.isAlpha := apply_toLower _ (by decide)

theorem caseless_isDigit : Caseless Char.isDigit := apply_toLower _ (by decide)

end Classes

@[simp] theorem trimStart_asciiLower (cs : List Char) :
    trimStart (asciiLower cs) = asciiLower (trimStart cs) :=
  caseless_isBlank.dropWhile cs

@[simp] theorem trim_asciiLower (cs : List Char) : trim (asciiLower cs) = asciiLower (trim cs) := by
  rw [trim, trimStart_asciiLower, trimEnd, ← asciiLower_reverse, caseless_isBlank.dropWhile,
    ← asciiLower_reverse]
  rfl

@[simp] theorem leadingBlanks_asciiLower (cs : List Char) :
    leadingBlanks (asciiLower cs) = leadingBlanks cs := by
  rw [leadingBlanks, caseless_isBlank.takeWhile, length_asciiLower, leadingBlanks]

theorem count_asciiLower {c : Char} (hc : c.isAlpha = false) (cs : List Char) :
    (asciiLower cs).count c = cs.count c := by
  rw [asciiLower, List.count_eq_countP, List.countP_map, List.count_eq_countP]
  refine List.countP_congr fun d _ => ?_
  simp [toLower_eq_iff hc]

theorem pieces_asciiLower {separator : Char} (hs : separator.isAlpha = false) (cs : List Char) :
    pieces separator (asciiLower cs) = (pieces separator cs).map asciiLower := by
  induction cs with
  | nil => rfl
  | cons c cs ih =>
    simp only [asciiLower_cons, pieces, toLower_eq_iff hs, ih]
    split
    · rfl
    · cases pieces separator cs <;> rfl

theorem sameLetters_asciiLower (a b : List Char) :
    sameLetters a (asciiLower b) = sameLetters a b := by
  simp [sameLetters]

theorem asciiLower_sameLetters (a b : List Char) :
    sameLetters (asciiLower a) b = sameLetters a b := by
  simp [sameLetters]

/-! ### Lowering all letters -/

theorem lowerOne_toLower (c : Char) : lowerOne c.toLower = lowerOne c :=
  apply_toLower lowerOne (by decide) c

/-- Characters between two bounds are in none of the ranges if all ranges are outside them. -/
theorem inRanges_eq_false {ranges : List (Nat × Nat)} (low high : Nat)
    (h : ranges.all (fun range => range.2 < low || high < range.1) = true) {cs : List Char}
    (hcs : cs.all (fun c => low ≤ c.toNat && c.toNat ≤ high) = true) :
    ∀ c ∈ cs, inRanges ranges c = false := by
  intro c hc
  rw [inRanges, List.any_eq_false]
  intro range hr
  have hout := List.all_eq_true.mp h range hr
  have hin := List.all_eq_true.mp hcs c hc
  simp only [Bool.or_eq_true, Bool.and_eq_true, decide_eq_true_eq] at hout hin ⊢
  omega

theorem caseless_caseIgnorable : Caseless (inRanges caseIgnorableRanges) := by
  have hsmall : ∀ c ∈ smallLetters, inRanges caseIgnorableRanges c = false :=
    inRanges_eq_false 97 122 (by decide +kernel) (by decide)
  have hcapital : ∀ c ∈ capitals, inRanges caseIgnorableRanges c = false :=
    inRanges_eq_false 65 90 (by decide +kernel) (by decide)
  refine apply_toLower _ ?_
  rw [List.map_congr_left hsmall, List.map_congr_left hcapital]
  rfl

theorem meetsCased_asciiLower (cs : List Char) : meetsCased (asciiLower cs) = meetsCased cs := by
  rw [meetsCased, caseless_caseIgnorable.dropWhile]
  unfold meetsCased
  cases cs.dropWhile (inRanges caseIgnorableRanges) with
  | nil => rfl
  | cons c rest => exact apply_toLower (inRanges casedRanges) (by decide +kernel) c

/-- A small letter is as good as its capital in front of a sigma and behind it. -/
theorem lowercaseAfter_asciiLower (before cs : List Char) :
    lowercaseAfter (asciiLower before) (asciiLower cs) = lowercaseAfter before cs := by
  induction cs generalizing before with
  | nil => rfl
  | cons c cs ih =>
    have hsigma : c.toLower = 'Σ' ↔ c = 'Σ' := toLower_eq_iff (by decide)
    have hrest := ih (c :: before)
    rw [asciiLower_cons] at hrest
    simp only [asciiLower_cons, lowercaseAfter, hsigma, lowerOne_toLower, hrest, lowerSigma,
      meetsCased_asciiLower]

theorem lowercase_asciiLower (cs : List Char) : lowercase (asciiLower cs) = lowercase cs :=
  lowercaseAfter_asciiLower [] cs

theorem lowercase_of_ascii {cs : List Char} (h : ∀ c ∈ cs, c.toNat < 0x80) :
    lowercase cs = asciiLower cs := by
  suffices ∀ before, lowercaseAfter before cs = asciiLower cs from this []
  induction cs with
  | nil => exact fun _ => rfl
  | cons c cs ih =>
    intro before
    obtain ⟨hc, hcs⟩ := List.forall_mem_cons.mp h
    have hsigma : c ≠ 'Σ' := by
      rintro rfl
      exact absurd hc (by decide)
    have hdotted : c ≠ 'İ' := by
      rintro rfl
      exact absurd hc (by decide)
    rw [lowercaseAfter, if_neg hsigma, lowerOne, if_neg hdotted, lowerLetter, if_pos hc, ih hcs]
    rfl

end ModelQuery.Text
