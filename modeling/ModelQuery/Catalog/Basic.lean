import ModelQuery.Filter.Comparison
import ModelQuery.Object.Model

/-! Catalogs: which categories and properties a filter may name, and of what kind a property is.
Names are compared without regard to case, and blanks around a name that is asked for do not
count. -/

namespace ModelQuery

/-- A property that filters may name. Objects may store it under its name or under an alias. -/
structure Property where
  name : String
  kind : Kind
  aliases : List String
  deriving DecidableEq, Repr, Inhabited

namespace Property

/-- The name and then the aliases. -/
def names (property : Property) : List String :=
  property.name :: property.aliases

def isNamed (property : Property) (name : String) : Bool :=
  property.names.any fun known => Text.sameName known (Text.trimmed name)

end Property

/-- A category of objects with the properties that its objects have. -/
structure Category where
  name : String
  aliases : List String
  /-- Whether objects of every category belong here. -/
  wildcard : Bool
  properties : List Property
  deriving DecidableEq, Repr, Inhabited

namespace Category

/-- The name and then the aliases. -/
def names (category : Category) : List String :=
  category.name :: category.aliases

def isNamed (category : Category) (name : String) : Bool :=
  category.names.any fun known => Text.sameName known (Text.trimmed name)

/-- Whether an object of a category that is named so belongs here. -/
def contains (category : Category) (name : String) : Bool :=
  category.wildcard || category.isNamed name

/-- The first property with a name. -/
def property? (category : Category) (name : String) : Option Property :=
  category.properties.find? (·.isNamed name)

/-- The names of all properties, in order. -/
def propertyNames (category : Category) : List String :=
  category.properties.flatMap Property.names

end Category

structure Catalog where
  categories : List Category
  deriving DecidableEq, Repr, Inhabited

namespace Catalog

/-- The names of all categories, in order. -/
def names (catalog : Catalog) : List String :=
  catalog.categories.flatMap Category.names

/-- The first category with a name. -/
def category? (catalog : Catalog) (name : String) : Option Category :=
  catalog.categories.find? (·.isNamed name)

/-- The first name that differs at most by case from one before it. -/
def repeated? (seen : List (List Char)) : List String → Option String
  | [] => none
  | name :: names =>
    let key := Text.asciiLower name.toList
    if key ∈ seen then some name else repeated? (key :: seen) names

/-- The catalog of these categories, no two of which may share a name. -/
def ofCategories (categories : List Category) : Except LoadError Catalog :=
  let catalog : Catalog := ⟨categories⟩
  match repeated? [] catalog.names with
  | some name => .error (.duplicateCategory name)
  | none => .ok catalog

end Catalog

end ModelQuery
