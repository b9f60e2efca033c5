import ModelQuery.Document.Record
import ModelQuery.Document.Writing
import ModelQuery.Keyed
import ModelQuery.Object.Value

/-! Models: objects with an id, a category and named properties. -/

namespace ModelQuery

/-- An object of a model. -/
structure Object where
  id : String
  category : String
  properties : Keyed Value
  deriving Repr, Inhabited

/-- The value of a property, under its very name or else under the first name that differs from it
by case only. -/
def Object.property? (object : Object) (name : String) : Option Value :=
  match object.properties.get? name with
  | some value => some value
  | none => (object.properties.find? fun (key, _) => Text.sameName key name).map Prod.snd

structure Model where
  name : Option String
  objects : List Object
  deriving Repr, Inhabited

/-- Why a model or a catalog cannot be used. -/
inductive LoadError
  /-- The text is no document of the form that is asked for. -/
  | document
  | duplicateId (id : String)
  | duplicateCategory (name : String)
  deriving DecidableEq, Repr

namespace Value

def ofDocument? : Document → Option Value
  | .boolean b => some (boolean b)
  | .integer n => (Document.integer n).int64?.map integer
  | .real x => some (number x)
  | .text s => some (text s)
  | _ => none

def toDocument : Value → Document
  | boolean b => .boolean b
  | integer n => .integer n.toInt
  | number x => .real x
  | text s => .text s

end Value

namespace Object

def ofDocument? (document : Document) : Option Object := do
  match ← document.fields? ["id", "category", "properties"] with
  | [id, category, properties] =>
    return {
      id := ← Document.required Document.text? id
      category := ← Document.required Document.text? category
      properties := .ofEntries
        (← Document.defaulting [] (Document.entries? Value.ofDocument?) properties) }
  | _ => none

def toDocument (object : Object) : Document :=
  .object [("id", .text object.id), ("category", .text object.category),
    ("properties", .object (object.properties.map fun (name, value) => (name, value.toDocument)))]

end Object

namespace Model

/-- The first id that stands again behind the object it belongs to. -/
def repeated? (seen : List String) : List String → Option String
  | [] => none
  | id :: ids => if id ∈ seen then some id else repeated? (id :: seen) ids

/-- A model in which no id stands twice. -/
def check (model : Model) : Except LoadError Model :=
  match repeated? [] (model.objects.map Object.id) with
  | some id => .error (.duplicateId id)
  | none => .ok model

def ofDocument? (document : Document) : Option Model := do
  match ← document.fields? ["name", "objects"] with
  | [name, objects] =>
    return {
      name := ← Document.optional Document.text? name
      objects := ← Document.defaulting [] (Document.list? Object.ofDocument?) objects }
  | _ => none

def toDocument (model : Model) : Document :=
  .object (Document.present "name" Document.text model.name ++
    [("objects", .array (model.objects.map Object.toDocument))])

/-- Reads a model from the text of its document. -/
def ofText (text : String) : Except LoadError Model :=
  match (Document.ofText? text).bind ofDocument? with
  | some model => model.check
  | none => .error .document

/-- The object with an id. -/
def get? (model : Model) (id : String) : Option Object :=
  model.objects.find? (·.id = id)

end Model

namespace LoadError

/-- The message, where a fault of the document itself is told by `detail`. -/
def message (detail : String) : LoadError → String
  | document => "JSON error: " ++ detail
  | duplicateId id => "duplicate object id '" ++ id ++ "'"
  | duplicateCategory name => "duplicate catalog category '" ++ name ++ "'"

end LoadError

end ModelQuery
