/-! Cutting a text at every occurrence of a separator. There is always one piece more than there
are separators, so the empty text has one empty piece. -/

namespace ModelQuery.Text

/-- The pieces of a text between its separators, in order. -/
def pieces (separator : Char) : List Char → List (List Char)
  | [] => [[]]
  | c :: cs =>
    if c = separator then [] :: pieces separator cs
    else match pieces separator cs with
      | [] => [[c]]
      | piece :: rest => (c :: piece) :: rest

theorem pieces_ne_nil (separator : Char) (cs : List Char) : pieces separator cs ≠ [] := by
  cases cs with
  | nil => simp [pieces]
  | cons c cs =>
    simp only [pieces]
    split
    · simp
    · split <;> simp

theorem length_pieces (separator : Char) (cs : List Char) :
    (pieces separator cs).length = cs.count separator + 1 := by
  induction cs with
  | nil => rfl
  | cons c cs ih =>
    simp only [pieces]
    by_cases h : c = separator
    · simp [h, ih]
    · have hne := pieces_ne_nil separator cs
      cases hp : pieces separator cs with
      | nil => exact absurd hp hne
      | cons piece rest =>
        rw [hp] at ih
        simpa [h] using ih

end ModelQuery.Text
