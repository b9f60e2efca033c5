import ModelQuery.Filter.Comparison
import ModelQuery.Object.Value

/-! The values that clauses compare with, read by the kind of the property. -/

namespace ModelQuery

inductive Operand
  | text (value : String)
  | number (value : Float)
  | integer (value : Int64)
  | boolean (value : Bool)
  deriving BEq, Repr, Inhabited

namespace Operand

/-- Reads an operand of a kind. Any text is a text; the others may have blanks around, and a number
has to be finite. -/
def ofText? (kind : Kind) (text : String) : Option Operand :=
  match kind with
  | .text => some (.text text)
  | .number =>
    (Number.float? (Text.trim text.toList)).bind fun x =>
      if x.isFinite then some (number x) else none
  | .integer => (Number.int64? (Text.trim text.toList)).map integer
  | .boolean => (truth? text.toList).map boolean

def render : Operand → String
  | text s => "'" ++ s ++ "'"
  | number x => Layout.plain.text x
  | integer n => toString n.toInt
  | boolean b => truthWord b

end Operand

end ModelQuery
