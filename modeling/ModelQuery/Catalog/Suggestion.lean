import ModelQuery.Text.EditDistance
import ModelQuery.Text.Lowercase

/-! Known names that resemble a name that is not known. -/

namespace ModelQuery.Suggestion

/-- How far apart two names are, whatever the case of their letters. -/
def distance (asked known : String) : Nat :=
  Text.editDistance (Text.lowercase asked.toList) (Text.lowercase known.toList)

/-- A name at most so far away may be meant. -/
def reach : Nat := 3

/-- The first of the nearest entries; `best` is the nearest so far. -/
def nearestFrom (best : String × Nat) : List (String × Nat) → String × Nat
  | [] => best
  | entry :: rest => nearestFrom (if entry.2 < best.2 then entry else best) rest

/-- The nearest of the known names. At distance zero there is nothing to suggest, as the name would
have been found. -/
def nearest? (asked : String) (known : List String) : Option String :=
  match (known.filter (· ≠ "")).map fun name => (name, distance asked name) with
  | [] => none
  | entry :: rest =>
    let (name, away) := nearestFrom entry rest
    if 0 < away ∧ away ≤ reach then some name else none

end ModelQuery.Suggestion
