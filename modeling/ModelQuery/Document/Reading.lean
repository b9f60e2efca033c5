import ModelQuery.Document.Lexeme

/-! Reading a document from its lexemes. What is still open is kept on a stack, so any depth can be
read. -/

namespace ModelQuery.Document

/-- An array or an object of which the end was not read yet, with what was read of it, last first.
An object is waiting for the value of `name`, and a name is `none` if it stands for no text. -/
inductive Open
  | array (items : List Document)
  | object (entries : List (Option String × Document)) (name : Option String)

/-- The object of entries; one name without a text breaks all of it. -/
def ofEntries (entries : List (Option String × Document)) : Document :=
  match entries.mapM fun (name, value) => name.map fun name => (name, value) with
  | some entries => object entries
  | none => broken

mutual

/-- Reads on where a value has to start. -/
def readValue (outer : List Open) : List Lexeme → Option Document
  | .bare value :: rest => readEnd value outer rest
  | .text value :: rest => readEnd ((value.map text).getD broken) outer rest
  | .openArray :: .closeArray :: rest => readEnd (array []) outer rest
  | .openArray :: rest => readValue (.array [] :: outer) rest
  | .openObject :: .closeObject :: rest => readEnd (object []) outer rest
  | .openObject :: .text name :: .colon :: rest => readValue (.object [] name :: outer) rest
  | _ => none

/-- Reads on where a value has just ended. -/
def readEnd (value : Document) (outer : List Open) : List Lexeme → Option Document
  | [] => if outer.isEmpty then some value else none
  | .closeArray :: rest => match outer with
    | .array items :: outer => readEnd (array (value :: items).reverse) outer rest
    | _ => none
  | .closeObject :: rest => match outer with
    | .object entries name :: outer =>
      readEnd (ofEntries ((name, value) :: entries).reverse) outer rest
    | _ => none
  | .comma :: .text next :: .colon :: rest => match outer with
    | .object entries name :: outer =>
      readValue (.object ((name, value) :: entries) next :: outer) rest
    | _ => none
  | .comma :: rest => match outer with
    | .array items :: outer => readValue (.array (value :: items) :: outer) rest
    | _ => none
  | _ => none

end

/-- Reads a document from the whole of a text. -/
def ofText? (text : String) : Option Document :=
  (Lexeme.run .gap text.toList).bind (readValue [])

end ModelQuery.Document
