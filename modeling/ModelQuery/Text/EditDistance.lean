/-! The edit distance of two texts: how many characters have to be put in, taken out or replaced to
turn one into the other. -/

namespace ModelQuery.Text

/-- The next row of the table of distances. A row holds the distances of one text to every start of
`b`, the empty one first. `corner` is the entry above and to the left of the entries that follow,
`left` the one to the left of them, and `c` the character that the row is for. -/
def editRow (c : Char) (corner left : Nat) : List Char → List Nat → List Nat
  | y :: b, above :: row =>
    let here := min (min (above + 1) (left + 1)) (if c = y then corner else corner + 1)
    here :: editRow c above here b row
  | _, _ => []

/-- The row after `row`, which starts with one more character taken out. -/
def nextRow (b : List Char) (row : List Nat) (c : Char) : List Nat :=
  match row with
  | [] => []
  | corner :: row => (corner + 1) :: editRow c corner (corner + 1) b row

def editDistance (a b : List Char) : Nat :=
  ((a.foldl (nextRow b) (List.range (b.length + 1))).getLast?).getD 0

end ModelQuery.Text
