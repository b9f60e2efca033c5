import ModelQuery.Proofs.Catalog.Answers
import ModelQuery.Proofs.Text.Casing
import ModelQuery.Proofs.Text.EditDistance
import Mathlib.Data.List.MinMax

/-! Names that are suggested in the place of unknown ones. A suggestion is the first of the nearest
names. There is none if a name is spelled alike in lower case, as such a name would have been found.
That holds of names in ASCII only: a lookup does not lower other letters. -/

namespace ModelQuery

open Text

namespace Suggestion

/-- The names that can be suggested. -/
def candidates (known : List String) : List String :=
  known.filter (· ≠ "")

/-- Two names that no lookup by the lower case of all letters would tell apart. -/
def Alike (a b : String) : Prop :=
  lowercase a.toList = lowercase b.toList

instance (a b : String) : Decidable (Alike a b) :=
  inferInstanceAs (Decidable (lowercase a.toList = lowercase b.toList))

def IsAscii (name : String) : Prop :=
  ∀ c ∈ name.toList, c.toNat < 0x80

theorem foldl_argAux_eq_nearestFrom (f : String → Nat) (best : String) (names : List String) :
    names.foldl (List.argAux fun b c => f b < f c) (some best) =
      some (nearestFrom (best, f best) (names.map fun name => (name, f name))).1 ∧
    (nearestFrom (best, f best) (names.map fun name => (name, f name))).2 =
      f (nearestFrom (best, f best) (names.map fun name => (name, f name))).1 := by
  induction names generalizing best with
  | nil => exact ⟨rfl, rfl⟩
  | cons name names ih =>
    simp only [List.foldl_cons, List.map_cons, nearestFrom, List.argAux]
    split
    · exact ih name
    · exact ih best

/-- What is suggested is the first of the nearest names, if it is near enough and not at distance
zero. -/
theorem nearest?_eq (asked : String) (known : List String) :
    nearest? asked known = ((candidates known).argmin (distance asked)).filter fun name =>
      0 < distance asked name ∧ distance asked name ≤ reach := by
  rw [nearest?, candidates]
  cases known.filter (· ≠ "") with
  | nil => rfl
  | cons name names =>
    obtain ⟨hargmin, haway⟩ := foldl_argAux_eq_nearestFrom (distance asked) name names
    have hfirst : (name :: names).argmin (distance asked) = some (nearestFrom
        (name, distance asked name) (names.map fun name => (name, distance asked name))).1 := hargmin
    simp only [List.map_cons, hfirst, Option.filter_some, haway, decide_eq_true_eq]

theorem distance_eq_zero_iff {asked name : String} : distance asked name = 0 ↔ Alike asked name :=
  editDistance_eq_zero_iff

/-- What a suggestion is, for a name that was looked up in vain. -/
structure Fits (asked : String) (known : List String) (suggestion : Option String) : Prop where
  /-- A distance counts the edits that it takes at least. -/
  isLeast_distance : ∀ name, IsLeast
    {n | Edits n (lowercase asked.toList) (lowercase name.toList)} (distance asked name)
  nearest : (∀ name ∈ candidates known, ¬ Alike asked name) →
    (∃ name ∈ candidates known, distance asked name ≤ 3) →
    ∃ name, suggestion = some name ∧ (candidates known).argmin (distance asked) = some name
  none_of_far : (∀ name ∈ candidates known, 3 < distance asked name) → suggestion = none
  /-- One name that is alike hides all others. -/
  none_of_alike : (∃ name ∈ candidates known, Alike asked name) → suggestion = none
  /-- Among names in ASCII, declared without blanks at their ends, there is no such one. -/
  not_alike : IsAscii asked → ∀ name ∈ candidates known, IsAscii name → trimmed name = name →
    ¬ Alike asked name

theorem nearest?_eq_some_iff {asked name : String} {known : List String} :
    nearest? asked known = some name ↔ (candidates known).argmin (distance asked) = some name ∧
      ¬ Alike asked name ∧ distance asked name ≤ 3 := by
  rw [nearest?_eq, Option.filter_eq_some_iff, decide_eq_true_eq, Nat.pos_iff_ne_zero, ne_eq,
    distance_eq_zero_iff]
  rfl

theorem not_sameName_of_find? {α : Type} {names : α → List String} {known : List α} {asked : String}
    (h : known.find? (fun a => (names a).any (sameName · (trimmed asked))) = none) {name : String}
    (hname : name ∈ known.flatMap names) : ¬ sameName name (trimmed asked) = true := by
  obtain ⟨a, ha, hn⟩ := List.mem_flatMap.mp hname
  intro hsame
  exact List.find?_eq_none.mp h a ha (List.any_eq_true.mpr ⟨name, hn, hsame⟩)

theorem fits_nearest? {asked : String} {known : List String}
    (hmissed : ∀ name ∈ known, ¬ sameName name (trimmed asked) = true) :
    Fits asked known (nearest? asked known) where
  isLeast_distance name := isLeast_editDistance _ _
  nearest hapart hnear := by
    obtain ⟨name, hname, haway⟩ := hnear
    have hsome : (candidates known).argmin (distance asked) ≠ none := by
      rw [ne_eq, List.argmin_eq_none]
      exact List.ne_nil_of_mem hname
    obtain ⟨best, hbest⟩ := Option.ne_none_iff_exists'.mp hsome
    have hleast : distance asked best ≤ distance asked name := List.le_of_mem_argmin hname hbest
    have hother := hapart best (List.argmin_mem hbest)
    exact ⟨best, nearest?_eq_some_iff.mpr ⟨hbest, hother, hleast.trans haway⟩, hbest⟩
  none_of_far hfar := by
    rw [Option.eq_none_iff_forall_ne_some]
    intro best hgiven
    obtain ⟨hbest, -, hnear⟩ := nearest?_eq_some_iff.mp hgiven
    exact absurd hnear (Nat.not_le_of_lt (hfar best (List.argmin_mem hbest)))
  none_of_alike halike := by
    obtain ⟨name, hname, halike⟩ := halike
    rw [Option.eq_none_iff_forall_ne_some]
    intro best hgiven
    obtain ⟨hbest, hother, -⟩ := nearest?_eq_some_iff.mp hgiven
    have hleast : distance asked best ≤ distance asked name := List.le_of_mem_argmin hname hbest
    rw [distance_eq_zero_iff.mpr halike, Nat.le_zero] at hleast
    exact hother (distance_eq_zero_iff.mp hleast)
  not_alike hasked name hname hplain htrimmed halike := by
    refine hmissed name (List.mem_of_mem_filter hname) (sameLetters_iff.mpr ?_)
    have hsame : asciiLower asked.toList = asciiLower name.toList := by
      rw [← lowercase_of_ascii hasked, ← lowercase_of_ascii hplain, halike]
    have htrim : trim name.toList = name.toList := by
      conv_rhs => rw [← htrimmed, trimmed, String.toList_ofList]
    rw [trimmed, String.toList_ofList, ← trim_asciiLower, hsame, trim_asciiLower, htrim]

end Suggestion

namespace Catalog

/-- A clause that is refused for a name comes with the nearest name that is known in its place: for
an unknown category the nearest of all categories, for an unknown property the nearest of the
category that was found. -/
theorem fits_of_resolver (catalog : Catalog) (clause : Clause) :
    (∀ asked suggestion, catalog.resolver clause = .error (.unknownCategory asked suggestion) →
      asked = clause.category ∧ Suggestion.Fits asked catalog.names suggestion) ∧
    ∀ owner asked suggestion,
      catalog.resolver clause = .error (.unknownProperty owner asked suggestion) →
        asked = clause.property ∧ ∃ category, catalog.category? clause.category = some category ∧
          owner = category.name ∧ Suggestion.Fits asked category.propertyNames suggestion := by
  refine ⟨fun asked suggestion h => ?_, fun owner asked suggestion h => ?_⟩
  · cases answers_iff.mpr h with
    | unknownCategory hcategory =>
      exact ⟨rfl, Suggestion.fits_nearest? fun name => Suggestion.not_sameName_of_find? hcategory⟩
  · cases answers_iff.mpr h with
    | unknownProperty hcategory hproperty =>
      exact ⟨rfl, _, hcategory, rfl,
        Suggestion.fits_nearest? fun name => Suggestion.not_sameName_of_find? hproperty⟩

/-- In lower case "TRÄGER" is a name that is known, so that nothing is suggested, not even the name
next to it. A lookup does not find it, as it takes only ASCII letters for the same in both cases. -/
theorem fits_of_resolver_umlaut : ∃ (catalog : Catalog) (name : String),
    catalog.resolver ⟨"Trager", "", "", ""⟩ =
        .error (.unknownCategory "Trager" (some name)) ∧
      (Suggestion.candidates catalog.names).argmin (Suggestion.distance "Trager") = some name ∧
      catalog.resolver ⟨"TRÄGER", "", "", ""⟩ = .error (.unknownCategory "TRÄGER" none) ∧
      "Tröger" ∈ Suggestion.candidates catalog.names ∧
      Suggestion.distance "TRÄGER" "Tröger" = 1 := by
  let catalog : Catalog := ⟨[⟨"Tröger", ["Träger"], false, []⟩]⟩
  let plain : Clause := ⟨"Trager", "", "", ""⟩
  let capital : Clause := ⟨"TRÄGER", "", "", ""⟩
  have hmissed : catalog.category? plain.category = none := by decide +kernel
  have hmissed' : catalog.category? capital.category = none := by decide +kernel
  have hrefused := answers_iff.mp (.unknownCategory hmissed)
  have halike := answers_iff.mp (.unknownCategory hmissed')
  obtain ⟨-, hfits⟩ := (fits_of_resolver catalog _).1 _ _ hrefused
  obtain ⟨name, hname, hfirst⟩ := hfits.nearest (by decide +kernel) ⟨"Träger", by decide +kernel⟩
  obtain ⟨-, hfits'⟩ := (fits_of_resolver catalog _).1 _ _ halike
  have hnone := hfits'.none_of_alike ⟨"Träger", by decide +kernel⟩
  exact ⟨catalog, name, hname ▸ hrefused, hfirst, hnone ▸ halike, by decide +kernel,
    by decide +kernel⟩

end Catalog

end ModelQuery
