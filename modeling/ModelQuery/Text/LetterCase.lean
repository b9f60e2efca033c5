/-! Comparing names and keywords. Only the letters `A` to `Z` lose their case here; every other
character stands for itself. -/

namespace ModelQuery.Text

/-- Lowers the letters `A` to `Z`. -/
def asciiLower (cs : List Char) : List Char :=
  cs.map Char.toLower

/-- Equal up to the case of the letters `A` to `Z`. -/
def sameLetters (a b : List Char) : Bool :=
  asciiLower a == asciiLower b

/-- Two strings that are the same name, whatever the case of their letters `A` to `Z`. -/
def sameName (a b : String) : Bool :=
  sameLetters a.toList b.toList

theorem sameLetters_iff {a b : List Char} : sameLetters a b ↔ asciiLower a = asciiLower b := by
  simp [sameLetters]

end ModelQuery.Text
