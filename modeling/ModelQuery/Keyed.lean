/-! Tables with one value a key, kept in the order of the keys. Texts are ordered by code points. -/

namespace ModelQuery

abbrev Keyed (α : Type) := List (String × α)

namespace Keyed

variable {α : Type}

/-- The value under a key. -/
def get? (key : String) : Keyed α → Option α
  | [] => none
  | (k, v) :: rest => if k = key then some v else get? key rest

/-- Puts a value under a key, in the place of the value that was there. -/
def insert (key : String) (value : α) : Keyed α → Keyed α
  | [] => [(key, value)]
  | (k, v) :: rest =>
    if key = k then (key, value) :: rest
    else if key < k then (key, value) :: (k, v) :: rest
    else (k, v) :: insert key value rest

def erase (key : String) (table : Keyed α) : Keyed α :=
  table.filter fun entry => entry.1 ≠ key

/-- The table of these entries; of several under one key the last one stays. -/
def ofEntries (entries : List (String × α)) : Keyed α :=
  entries.foldl (fun table (key, value) => table.insert key value) []

theorem get?_insert (key other : String) (value : α) (table : Keyed α) :
    get? other (insert key value table) = if other = key then some value else get? other table := by
  induction table with
  | nil => grind [insert, get?]
  | cons entry rest ih =>
    obtain ⟨k, v⟩ := entry
    simp only [insert]
    split
    · subst k
      by_cases h : other = key
      · simp [get?, h]
      · simp [get?, h, Ne.symm h]
    · split
      · by_cases h : other = key
        · simp [get?, h]
        · simp [get?, h, Ne.symm h]
      · simp only [get?, ih]
        by_cases h : k = other
        · subst h; grind
        · simp [h]

theorem get?_erase (key other : String) (table : Keyed α) :
    get? other (erase key table) = if other = key then none else get? other table := by
  induction table with
  | nil => simp [erase, get?]
  | cons entry rest ih =>
    obtain ⟨k, v⟩ := entry
    simp only [erase, List.filter_cons] at ih ⊢
    grind [get?]

end Keyed

end ModelQuery
