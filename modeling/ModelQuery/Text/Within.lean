/-! Whether a text stands somewhere within another. -/

namespace ModelQuery.Text

/-- Whether `part` begins at some place of a text. -/
def isWithin (part : List Char) : List Char → Bool
  | [] => part.isEmpty
  | c :: cs => part.isPrefixOf (c :: cs) || isWithin part cs

theorem isWithin_iff (part text : List Char) : isWithin part text = true ↔ part <:+: text := by
  induction text with
  | nil => simp [isWithin]
  | cons c cs ih =>
    simp only [isWithin, Bool.or_eq_true, List.isPrefixOf_iff_prefix, ih, List.infix_cons_iff]

end ModelQuery.Text
