import ModelQuery.Number.Layout
import ModelQuery.Number.Reading
import ModelQuery.Text.Blank

/-! The values of properties, as a model stores them. A value that is stored in one form can be read
in another, so that a number in a text is still a number. -/

namespace ModelQuery

inductive Value
  | boolean (value : Bool)
  | integer (value : Int64)
  | number (value : Float)
  | text (value : String)
  deriving Repr, Inhabited

/-- Reads `true`, `yes` and `1`, or `false`, `no` and `0`, in any case and with blanks around. -/
def truth? (text : List Char) : Option Bool :=
  let word := Text.asciiLower (Text.trim text)
  if word = "true".toList ∨ word = "yes".toList ∨ word = "1".toList then some true
  else if word = "false".toList ∨ word = "no".toList ∨ word = "0".toList then some false
  else none

def truthWord (value : Bool) : String :=
  if value then "true" else "false"

namespace Value

/-- The text of a value. -/
def render : Value → String
  | boolean b => truthWord b
  | integer n => toString n.toInt
  | number x => Layout.plain.text x
  | text s => s

/-- The value as a double. A text has to spell one, and a truth value is none. -/
def float? : Value → Option Float
  | boolean _ => none
  | integer n => some (Float.ofInt n.toInt)
  | number x => some x
  | text s => Number.float? (Text.trim s.toList)

/-- The value as a whole number. A double has to be whole, and beyond the range it becomes the
nearest end of it. -/
def int64? : Value → Option Int64
  | boolean _ => none
  | integer n => some n
  | number x => (Binary.ofFloat x).toInt?.map Int64.ofIntClamp
  | text s => Number.int64? (Text.trim s.toList)

/-- The value as a truth value. Of the numbers only the integers 0 and 1 are one. -/
def truth? : Value → Option Bool
  | boolean b => some b
  | integer n => if n = 0 then some false else if n = 1 then some true else none
  | number _ => none
  | text s => ModelQuery.truth? s.toList

end Value

end ModelQuery
