import ModelQuery.Catalog.Documented
import ModelQuery.Catalog.Resolve
import Mathlib.Data.List.Nodup

/-! Looking up categories by name. In a catalog no two names agree up to the case of their letters, so
that a name is found in one category at most, in whatever order the categories stand. -/

namespace ModelQuery

open Text

/-- What all spellings of a name have in common. -/
def nameKey (name : String) : List Char :=
  asciiLower name.toList

namespace Category

def keys (category : Category) : List (List Char) :=
  category.names.map nameKey

theorem isNamed_iff {category : Category} {name : String} :
    category.isNamed name = true ↔ nameKey (trimmed name) ∈ category.keys := by
  simp only [isNamed, List.any_eq_true, sameName, sameLetters_iff, keys, List.mem_map, nameKey]

end Category

namespace Catalog

/-- No name stands in a catalog twice, in whatever case. -/
def IsUnambiguous (catalog : Catalog) : Prop :=
  (catalog.names.map nameKey).Nodup

theorem repeated?_eq_none_iff {seen : List (List Char)} {names : List String} :
    repeated? seen names = none ↔
      (names.map nameKey).Nodup ∧ (names.map nameKey).Disjoint seen := by
  induction names generalizing seen with
  | nil => simp [repeated?]
  | cons name names ih =>
    change (if nameKey name ∈ seen then some name else repeated? (nameKey name :: seen) names) =
      none ↔ _
    rw [List.map_cons, List.nodup_cons, List.disjoint_cons_left]
    split
    · next hseen => simp [hseen]
    · next hnew =>
      rw [ih, List.disjoint_cons_right]
      tauto

theorem ofCategories_eq_ok_iff {categories : List Category} {catalog : Catalog} :
    ofCategories categories = .ok catalog ↔ catalog = ⟨categories⟩ ∧ catalog.IsUnambiguous := by
  have hnone : repeated? [] (names ⟨categories⟩) = none ↔ IsUnambiguous ⟨categories⟩ := by
    simp [repeated?_eq_none_iff, IsUnambiguous]
  simp only [ofCategories]
  cases hrepeated : repeated? [] (names ⟨categories⟩) with
  | some name =>
    have hnot : ¬ IsUnambiguous ⟨categories⟩ := fun h => by simp [hnone.mpr h] at hrepeated
    refine iff_of_false (fun h => by cases h) ?_
    rintro ⟨rfl, h⟩
    exact hnot h
  | none =>
    constructor
    · intro h
      obtain rfl := Except.ok.inj h
      exact ⟨rfl, hnone.mp hrepeated⟩
    · rintro ⟨rfl, -⟩
      rfl

theorem isUnambiguous_of_ofText {text : String} {catalog : Catalog}
    (h : ofText text = .ok catalog) : catalog.IsUnambiguous := by
  unfold ofText at h
  split at h
  · exact (ofCategories_eq_ok_iff.mp h).2
  · cases h

variable {catalog : Catalog}

theorem keys_names : catalog.names.map nameKey = catalog.categories.flatMap Category.keys :=
  List.map_flatMap

/-- A name is found in the one category that has it, and it may be any of the spellings that stand
for it there. -/
theorem IsUnambiguous.category?_eq_some_iff (h : catalog.IsUnambiguous) {name : String}
    {category : Category} :
    catalog.category? name = some category ↔
      category ∈ catalog.categories ∧ nameKey (trimmed name) ∈ category.keys := by
  rw [category?, ← Category.isNamed_iff, List.find?_eq_some_iff_append]
  constructor
  · rintro ⟨hnamed, front, back, hcategories, -⟩
    exact ⟨by simp [hcategories], hnamed⟩
  · rintro ⟨hm, hnamed⟩
    obtain ⟨front, back, hcategories⟩ := List.append_of_mem hm
    rw [IsUnambiguous, keys_names] at h
    have hapart := (List.nodup_flatMap.mp h).2
    rw [hcategories] at hapart
    refine ⟨hnamed, front, back, hcategories, fun other ho => ?_⟩
    have hdisjoint := (List.pairwise_append.mp hapart).2.2 other ho category (List.mem_cons_self ..)
    rw [Bool.not_eq_true', Bool.eq_false_iff]
    intro hother
    exact hdisjoint (Category.isNamed_iff.mp hother) (Category.isNamed_iff.mp hnamed)

theorem IsUnambiguous.perm (h : catalog.IsUnambiguous) {categories : List Category}
    (hp : catalog.categories.Perm categories) : IsUnambiguous ⟨categories⟩ :=
  ((hp.flatMap_right Category.names).map nameKey).nodup_iff.mp h

theorem IsUnambiguous.category?_perm (h : catalog.IsUnambiguous) {categories : List Category}
    (hp : catalog.categories.Perm categories) (name : String) :
    category? ⟨categories⟩ name = catalog.category? name := by
  refine Option.ext fun category => ?_
  rw [h.category?_eq_some_iff, (h.perm hp).category?_eq_some_iff, hp.mem_iff]

theorem resolver_eq_ok_iff_of_category? {catalog' : Catalog} {clause : Clause}
    (h : catalog'.category? clause.category = catalog.category? clause.category)
    (predicate : Predicate) :
    catalog'.resolver clause = .ok predicate ↔ catalog.resolver clause = .ok predicate := by
  simp only [resolver, h]
  cases catalog.category? clause.category with
  | none => simp
  | some category => rfl

/-- The categories of a catalog may be put in any order: it is still a catalog, whatever is looked up
is the same, and a clause has the same meaning or has none. -/
theorem ofCategories_perm {categories categories' : List Category} {catalog : Catalog}
    (h : ofCategories categories = .ok catalog) (hp : categories.Perm categories') :
    ∃ catalog', ofCategories categories' = .ok catalog' ∧
      (∀ name, catalog'.category? name = catalog.category? name) ∧
      ∀ clause predicate,
        catalog'.resolver clause = .ok predicate ↔ catalog.resolver clause = .ok predicate := by
  obtain ⟨rfl, hone⟩ := ofCategories_eq_ok_iff.mp h
  have hsame := hone.category?_perm hp
  exact ⟨⟨categories'⟩, ofCategories_eq_ok_iff.mpr ⟨rfl, hone.perm hp⟩, hsame,
    fun clause => resolver_eq_ok_iff_of_category? (hsame clause.category)⟩

theorem ofCategories_perm_padded : ∃ (part bolt : Category) (catalog catalog' : Catalog),
    ofCategories [part, bolt] = .ok catalog ∧ ofCategories [bolt, part] = .ok catalog' ∧
      catalog'.category? " BEAM " = some part ∧ catalog.category? " BEAM " = some part := by
  let part : Category := ⟨"Part", ["Beam"], false, []⟩
  let bolt : Category := ⟨"Bolt", [" Beam"], false, []⟩
  have haccepted : ofCategories [part, bolt] = .ok ⟨[part, bolt]⟩ := by decide +kernel
  have hfound : category? ⟨[part, bolt]⟩ " BEAM " = some part := by decide +kernel
  obtain ⟨catalog', hok, hsame, -⟩ := ofCategories_perm haccepted (List.Perm.swap bolt part [])
  exact ⟨part, bolt, _, catalog', haccepted, hok, (hsame " BEAM ").trans hfound, hfound⟩

theorem resolver_eq_of_category? {category : Category} {a b : String}
    (ha : catalog.category? a = some category) (hb : catalog.category? b = some category)
    (property operator value : String) :
    catalog.resolver ⟨a, property, operator, value⟩ =
      catalog.resolver ⟨b, property, operator, value⟩ := by
  simp only [resolver, ha, hb]

/-- A category is found by whatever agrees, without the blanks around it, with one of its names up to
the case of letters. So every name that is declared without blanks at its ends is found, and in a
clause it is as good as any other such name of the category. The blanks at the ends of a declared
name are not taken off, so that such a name is found only if the category also has it without them. -/
theorem category?_declared
    (h : (∃ categories, ofCategories categories = .ok catalog) ∨ ∃ text, ofText text = .ok catalog)
    {category : Category} (hm : category ∈ catalog.categories) :
    (∀ asked, catalog.category? asked = some category ↔
      ∃ name ∈ category.names, sameName name (trimmed asked) = true) ∧
    (∀ name ∈ category.names, trimmed name = name → catalog.category? name = some category) ∧
    ∀ a ∈ category.names, ∀ b ∈ category.names, trimmed a = a → trimmed b = b →
      ∀ property operator value, catalog.resolver ⟨a, property, operator, value⟩ =
        catalog.resolver ⟨b, property, operator, value⟩ := by
  have hone : catalog.IsUnambiguous := by
    rcases h with ⟨categories, h⟩ | ⟨text, h⟩
    · exact (ofCategories_eq_ok_iff.mp h).2
    · exact isUnambiguous_of_ofText h
  have hfound : ∀ asked, catalog.category? asked = some category ↔
      ∃ name ∈ category.names, sameName name (trimmed asked) = true := by
    intro asked
    rw [hone.category?_eq_some_iff, ← Category.isNamed_iff, Category.isNamed, List.any_eq_true]
    exact and_iff_right hm
  have hdeclared : ∀ name ∈ category.names, trimmed name = name →
      catalog.category? name = some category := by
    intro name hname htrimmed
    refine (hfound name).mpr ⟨name, hname, ?_⟩
    rw [htrimmed]
    exact sameLetters_iff.mpr rfl
  refine ⟨hfound, hdeclared, fun a ha b hb hat hbt => ?_⟩
  exact resolver_eq_of_category? (hdeclared a ha hat) (hdeclared b hb hbt)

theorem category?_declared_padded : ∃ (catalog : Catalog) (part : Category),
    ofCategories catalog.categories = .ok catalog ∧ part ∈ catalog.categories ∧
      "Beam" ∈ part.names ∧ catalog.category? "Beam" = some part ∧
      catalog.category? " BEAM " = some part ∧
      "Slab " ∈ part.names ∧ catalog.category? "Slab " ≠ some part := by
  let part : Category := ⟨"Part", ["Beam", "Slab "], false, []⟩
  let catalog : Catalog := ⟨[part, ⟨"Bolt", [], false, []⟩]⟩
  have haccepted : ofCategories catalog.categories = .ok catalog := by decide +kernel
  have hm : part ∈ catalog.categories := List.mem_cons_self ..
  obtain ⟨hfound, hdeclared, -⟩ := category?_declared (Or.inl ⟨catalog.categories, haccepted⟩) hm
  refine ⟨catalog, part, haccepted, hm, by decide, hdeclared "Beam" (by decide) (by decide +kernel),
    (hfound " BEAM ").mpr ⟨"Beam", by decide, by decide +kernel⟩, by decide, fun h => ?_⟩
  have hnone : ¬ ∃ name ∈ part.names, sameName name (trimmed "Slab ") = true := by decide +kernel
  exact hnone ((hfound "Slab ").mp h)

end Catalog

end ModelQuery
