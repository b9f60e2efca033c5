import ModelQuery.Criteria.Basic
import ModelQuery.Document.Record

/-! Criteria as documents: an array of comparisons, or an object with an array of groups. -/

namespace ModelQuery

namespace Criterion

def ofDocument? (document : Document) : Option Criterion := do
  match ← document.fields? ["category", "property", "operator", "value", "logical_operator"] with
  | [category, property, operator, value, joiner] =>
    return {
      category := ← Document.required Document.text? category
      property := ← Document.required Document.text? property
      operator := ← Document.optional Document.text? operator
      value := ← Document.required Document.text? value
      joiner := ← Document.optional Document.text? joiner }
  | _ => none

def toDocument (criterion : Criterion) : Document :=
  .object ([("category", .text criterion.category), ("property", .text criterion.property)] ++
    Document.present "operator" Document.text criterion.operator ++
    [("value", .text criterion.value)] ++
    Document.present "logical_operator" Document.text criterion.joiner)

end Criterion

namespace Criteria

namespace Group

/-- Reads a group inside which at most `depth` groups lie inside each other. -/
def ofDocument? : Nat → Document → Option Group
  | 0, _ => none
  | depth + 1, document => do
    match ← document.fields? ["logical_operator", "criteria", "groups"] with
    | [joiner, criteria, groups] =>
      return .mk (← Document.optional Document.text? joiner)
        (← Document.defaulting [] (Document.list? Criterion.ofDocument?) criteria)
        (← Document.defaulting [] (Document.list? (ofDocument? depth)) groups)
    | _ => none

mutual

def toDocument : Group → Document
  | mk joiner criteria groups =>
    .object (Document.present "logical_operator" Document.text joiner ++
      Document.nonempty "criteria" Criterion.toDocument criteria ++
      (match toDocuments groups with
        | [] => []
        | items => [("groups", .array items)]))

def toDocuments : List Group → List Document
  | [] => []
  | group :: groups => group.toDocument :: toDocuments groups

end

end Group

def ofDocument? : Document → Option Criteria
  | .array items => (items.mapM Criterion.ofDocument?).map sequence
  | .object entries =>
    (Document.single? "groups" entries).bind fun value =>
      (Document.required (Document.list? (Group.ofDocument? Document.maxDepth)) value).map grouped
  | _ => none

def toDocument : Criteria → Document
  | sequence list => .array (list.map Criterion.toDocument)
  | grouped list => .object [("groups", .array (Group.toDocuments list))]

/-- Reads criteria from the text of their document, every part of which has to be sound, also what
no field asks for. -/
def ofText? (text : String) : Option Criteria :=
  (Document.ofText? text).bind fun document =>
    if document.isSound Document.maxDepth then ofDocument? document else none

end Criteria

end ModelQuery
