import ModelQuery.Catalog.Basic

/-! Catalogs as documents. Empty lists of aliases and a wildcard that is not set are left out. -/

namespace ModelQuery

def Kind.ofDocument? (document : Document) : Option Kind := do
  let word ← document.word?
  Kind.all.find? (·.word = word)

namespace Property

def ofDocument? (document : Document) : Option Property := do
  match ← document.fields? ["name", "kind", "aliases"] with
  | [name, kind, aliases] =>
    return {
      name := ← Document.required Document.text? name
      kind := ← Document.required Kind.ofDocument? kind
      aliases := ← Document.defaulting [] (Document.list? Document.text?) aliases }
  | _ => none

def toDocument (property : Property) : Document :=
  .object ([("name", .text property.name), ("kind", .text property.kind.word)] ++
    Document.nonempty "aliases" Document.text property.aliases)

end Property

namespace Category

def ofDocument? (document : Document) : Option Category := do
  match ← document.fields? ["name", "aliases", "wildcard", "properties"] with
  | [name, aliases, wildcard, properties] =>
    return {
      name := ← Document.required Document.text? name
      aliases := ← Document.defaulting [] (Document.list? Document.text?) aliases
      wildcard := ← Document.defaulting false Document.boolean? wildcard
      properties := ← Document.defaulting [] (Document.list? Property.ofDocument?) properties }
  | _ => none

def toDocument (category : Category) : Document :=
  .object ([("name", .text category.name)] ++
    Document.nonempty "aliases" Document.text category.aliases ++
    (if category.wildcard then [("wildcard", .boolean true)] else []) ++
    [("properties", .array (category.properties.map Property.toDocument))])

end Category

namespace Catalog

def ofDocument? (document : Document) : Option Catalog := do
  match ← document.fields? ["categories"] with
  | [categories] =>
    return ⟨← Document.required (Document.list? Category.ofDocument?) categories⟩
  | _ => none

def toDocument (catalog : Catalog) : Document :=
  .object [("categories", .array (catalog.categories.map Category.toDocument))]

/-- Reads a catalog from the text of its document. -/
def ofText (text : String) : Except LoadError Catalog :=
  match (Document.ofText? text).bind ofDocument? with
  | some catalog => ofCategories catalog.categories
  | none => .error .document

end Catalog

end ModelQuery
