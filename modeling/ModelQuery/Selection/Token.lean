import ModelQuery.Document.Writing

/-! The tokens of selections: sixteen random bytes in hexadecimal, in groups that dashes part. Six
bits are fixed and tell that the others are random. -/

namespace ModelQuery.Selection

def byteText (n : Nat) : String :=
  String.ofList [Document.hexDigit (n / 16 % 16), Document.hexDigit (n % 16)]

/-- Marks random bytes as such. -/
def marked (bytes : List Nat) : List Nat :=
  (bytes.modify 6 fun n => n % 16 + 64).modify 8 fun n => n % 64 + 128

def token (bytes : List Nat) : String :=
  let texts := (marked bytes).map byteText
  let group (first size : Nat) : String := String.join ((texts.drop first).take size)
  "-".intercalate [group 0 4, group 4 2, group 6 2, group 8 2, group 10 6]

end ModelQuery.Selection
