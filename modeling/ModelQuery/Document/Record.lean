import ModelQuery.Document.Reading

/-! Reading records from documents. A record is an object, of which unknown names are passed over
and known names may stand once, or an array of the fields in their order, of which the last may be
left out. -/

namespace ModelQuery.Document

/-- The value under a name: `none` if the name stands twice, `some none` if it is absent. -/
def single? (name : String) (entries : List (String × Document)) : Option (Option Document) :=
  match entries.filter (·.1 == name) with
  | [] => some none
  | [(_, value)] => some (some value)
  | _ => none

/-- The fields of a record in the order of their names, absent ones being `none`. -/
def fields? (names : List String) : Document → Option (List (Option Document))
  | object entries => names.mapM (single? · entries)
  | array items =>
    if items.length ≤ names.length then
      some ((List.range names.length).map (items[·]?))
    else none
  | _ => none

def text? : Document → Option String
  | text s => some s
  | _ => none

def boolean? : Document → Option Bool
  | boolean b => some b
  | _ => none

/-- A whole number that 64 bits with a sign hold. -/
def int64? : Document → Option Int64
  | integer n =>
    if Int64.minValue.toInt ≤ n ∧ n ≤ Int64.maxValue.toInt then some (Int64.ofInt n) else none
  | _ => none

/-- The items of an array, each read in the same way. -/
def list? {α : Type} (item? : Document → Option α) : Document → Option (List α)
  | array items => items.mapM item?
  | _ => none

/-- The entries of an object, each value read in the same way. -/
def entries? {α : Type} (value? : Document → Option α) : Document → Option (List (String × α))
  | object entries =>
    entries.mapM fun (name, value) => (value? value).map fun value => (name, value)
  | _ => none

/-- One of these words, as a text or as the name of an object that holds only a `null`. -/
def word? : Document → Option String
  | text s => some s
  | object [(name, null)] => some name
  | _ => none

/-- A field that has to be there. -/
def required {α : Type} (read? : Document → Option α) (field : Option Document) : Option α :=
  field.bind read?

/-- A field that stands for `default` if it is absent. -/
def defaulting {α : Type} (default : α) (read? : Document → Option α) :
    Option Document → Option α
  | none => some default
  | some value => read? value

/-- A field that may be absent or `null`. -/
def optional {α : Type} (read? : Document → Option α) : Option Document → Option (Option α)
  | none | some null => some none
  | some value => (read? value).map some

/-- The entry of a field unless it is absent. -/
def present {α : Type} (name : String) (write : α → Document) (value : Option α) :
    List (String × Document) :=
  (value.map fun value => (name, write value)).toList

/-- The entry of a list unless it is empty. -/
def nonempty {α : Type} (name : String) (write : α → Document) (values : List α) :
    List (String × Document) :=
  if values.isEmpty then [] else [(name, array (values.map write))]

end ModelQuery.Document
