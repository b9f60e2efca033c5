/-! Documents: the values of JSON. The entries of an object are kept in the order in which they were
written, repeated names included, and what is made of them is left to the reader of a record. -/

namespace ModelQuery

inductive Document
  | null
  | boolean (value : Bool)
  | integer (value : Int)
  | real (value : Float)
  | text (value : String)
  | array (items : List Document)
  | object (entries : List (String × Document))
  /-- What is well formed and stands for no value: a number out of range, or a text or an object
  with a surrogate that has no partner. -/
  | broken
  deriving Repr, Inhabited

namespace Document

mutual

/-- Whether every part of a document stands for a value, and at most `depth` arrays and objects lie
inside each other. -/
def isSound (depth : Nat) : Document → Bool
  | null | boolean _ | integer _ | real _ | text _ => true
  | array items => depth != 0 && areSound (depth - 1) items
  | object entries => depth != 0 && entriesAreSound (depth - 1) entries
  | broken => false

def areSound (depth : Nat) : List Document → Bool
  | [] => true
  | item :: items => item.isSound depth && areSound depth items

def entriesAreSound (depth : Nat) : List (String × Document) → Bool
  | [] => true
  | (_, value) :: entries => value.isSound depth && entriesAreSound depth entries

end

/-- Documents nest no deeper than this. -/
def maxDepth : Nat := 127

end Document

end ModelQuery
