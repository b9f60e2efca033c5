import ModelQuery.Catalog.Documented
import ModelQuery.Proofs.Catalog.Naming
import ModelQuery.Proofs.Document.Record

/-! Catalogs that are read as they were written. Whatever is left out on writing is what stands for
an absent field on reading, in every record. -/

namespace ModelQuery

open Document

theorem Kind.ofDocument?_word (kind : Kind) : ofDocument? (.text kind.word) = some kind := by
  cases kind <;> decide

namespace Property

/-- The fields of a property, as they are written. -/
def fields (property : Property) : List (String × Option Document) :=
  [("name", some (.text property.name)), ("kind", some (.text property.kind.word)),
    ("aliases", listed .text property.aliases)]

theorem toDocument_eq (property : Property) :
    property.toDocument = .object (written property.fields) := by
  obtain ⟨name, kind, aliases⟩ := property
  cases aliases <;> rfl

theorem isPlain_toDocument (property : Property) : property.toDocument.isPlain = true := by
  rw [toDocument_eq]
  refine isPlain_written ?_
  simp only [fields, List.forall_mem_cons, Option.mem_some, forall_eq']
  exact ⟨rfl, rfl, isPlain_listed fun _ _ => rfl, List.forall_mem_nil _⟩

theorem ofDocument?_toDocument (property : Property) :
    ofDocument? property.toDocument = some property := by
  have hfields := fields?_written property.fields (by simp [fields])
  rw [← toDocument_eq] at hfields
  simp only [fields, List.map_cons, List.map_nil] at hfields
  simp [ofDocument?, hfields, required, text?, Kind.ofDocument?_word, defaulting_texts]

end Property

namespace Category

/-- The fields of a category, as they are written. -/
def fields (category : Category) : List (String × Option Document) :=
  [("name", some (.text category.name)), ("aliases", listed .text category.aliases),
    ("wildcard", if category.wildcard then some (.boolean true) else none),
    ("properties", some (.array (category.properties.map Property.toDocument)))]

theorem toDocument_eq (category : Category) :
    category.toDocument = .object (written category.fields) := by
  obtain ⟨name, aliases, wildcard, properties⟩ := category
  cases aliases <;> cases wildcard <;> rfl

theorem isPlain_toDocument (category : Category) : category.toDocument.isPlain = true := by
  rw [toDocument_eq]
  refine isPlain_written ?_
  simp only [fields, List.forall_mem_cons, Option.mem_some, forall_eq']
  refine ⟨rfl, isPlain_listed fun _ _ => rfl, ?_, ?_, List.forall_mem_nil _⟩
  · cases category.wildcard <;> simp [isPlain]
  · exact arePlain_iff.mpr (List.forall_mem_map.mpr fun property _ => property.isPlain_toDocument)

theorem defaulting_wildcard (wildcard : Bool) :
    defaulting false boolean? (if wildcard then some (.boolean true) else none) =
      some wildcard := by
  cases wildcard <;> rfl

theorem ofDocument?_toDocument (category : Category) :
    ofDocument? category.toDocument = some category := by
  have hfields := fields?_written category.fields (by simp [fields])
  have hproperties : defaulting [] (list? Property.ofDocument?)
      (some (.array (category.properties.map Property.toDocument))) = some category.properties :=
    list?_map fun property _ => property.ofDocument?_toDocument
  rw [← toDocument_eq] at hfields
  simp only [fields, List.map_cons, List.map_nil] at hfields
  rw [ofDocument?, hfields]
  simp [required, text?, defaulting_texts, defaulting_wildcard, hproperties]

end Category

namespace Catalog

theorem isPlain_toDocument (catalog : Catalog) : catalog.toDocument.isPlain = true := by
  have hcategories : arePlain (catalog.categories.map Category.toDocument) = true :=
    arePlain_iff.mpr (List.forall_mem_map.mpr fun category _ => category.isPlain_toDocument)
  rw [toDocument, isPlain, entriesArePlain, isPlain, hcategories]
  rfl

theorem ofDocument?_toDocument (catalog : Catalog) :
    ofDocument? catalog.toDocument = some catalog := by
  have hcategories : list? Category.ofDocument?
      (.array (catalog.categories.map Category.toDocument)) = some catalog.categories :=
    list?_map fun category _ => category.ofDocument?_toDocument
  simp [ofDocument?, toDocument, fields?, single?, required, hcategories]

/-- A catalog that was read is read again from how it is written. -/
theorem ofText_written {text : String} {catalog : Catalog} (h : ofText text = .ok catalog) :
    ofText catalog.toDocument.compact = .ok catalog ∧
      ofText catalog.toDocument.pretty = .ok catalog := by
  have hcategories : ofCategories catalog.categories = .ok catalog :=
    ofCategories_eq_ok_iff.mpr ⟨rfl, isUnambiguous_of_ofText h⟩
  have hplain := catalog.isPlain_toDocument
  constructor
  · rw [ofText, ofText?_compact hplain, Option.bind_some, ofDocument?_toDocument]
    exact hcategories
  · rw [ofText, ofText?_pretty hplain, Option.bind_some, ofDocument?_toDocument]
    exact hcategories

end Catalog

end ModelQuery
