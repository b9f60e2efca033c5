import ModelQuery.Document.Record
import ModelQuery.Document.Writing
import ModelQuery.Selection.Basic
import ModelQuery.Selection.Reading

/-! Selections as documents. -/

namespace ModelQuery

def Instant.ofDocument? (document : Document) : Option Instant :=
  document.text?.bind Instant.ofText?

namespace Selection

def ofDocument? (document : Document) : Option Selection := do
  match ← document.fields? ["ids", "created_at", "expires_at"] with
  | [ids, created, expires] =>
    return {
      ids := ← Document.required (Document.list? Document.text?) ids
      created := ← Document.required Instant.ofDocument? created
      expires := ← Document.required Instant.ofDocument? expires }
  | _ => none

def toDocument (selection : Selection) : Document :=
  .object [("ids", .array (selection.ids.map Document.text)),
    ("created_at", .text selection.created.render), ("expires_at", .text selection.expires.render)]

end Selection

namespace Selections

def ofDocument? (document : Document) : Option Selections := do
  match ← document.fields? ["ttl_secs", "selections"] with
  | [lifetime, stored] =>
    return {
      lifetime := ← Document.defaulting defaultLifetime Document.int64? lifetime
      stored := .ofEntries
        (← Document.defaulting [] (Document.entries? Selection.ofDocument?) stored) }
  | _ => none

def toDocument (selections : Selections) : Document :=
  .object [("ttl_secs", .integer selections.lifetime.toInt),
    ("selections", .object (selections.stored.map fun (token, selection) =>
      (token, selection.toDocument)))]

def ofText? (text : String) : Option Selections :=
  (Document.ofText? text).bind ofDocument?

def render (selections : Selections) : String :=
  selections.toDocument.pretty

end Selections

end ModelQuery
