import ModelQuery.Number.Shortest

/-! How numbers are written. The same shortest digits are laid out in two ways, one for the eye and
one for documents that are read again. -/

namespace ModelQuery

/-- A way of writing doubles. -/
structure Layout where
  /-- Which of two equally near decimals is taken. -/
  tie : Shortest.Tie
  /-- Whether a whole number still shows a point and one zero. -/
  pointed : Bool
  /-- The powers of ten from the first to below the second are written without an exponent; without
  such bounds every number is. -/
  positional : Option (Int × Int)

namespace Layout

/-- For the eye: never an exponent, and whole numbers without a point. -/
def plain : Layout := ⟨.up, false, none⟩

/-- For documents: an exponent below `1e-5` and from `1e16` on, and always a point or an
exponent. -/
def document : Layout := ⟨.even, true, some (-5, 16)⟩

private def zeros (n : Nat) : String :=
  String.ofList (List.replicate n '0')

/-- Writes `digits * 10 ^ place` without an exponent. -/
def positionalText (layout : Layout) (digits : Nat) (place : Int) : String :=
  let text := (toString digits).toList
  if 0 ≤ place then
    toString digits ++ zeros place.toNat ++ (if layout.pointed then ".0" else "")
  else
    let after := (-place).toNat
    if after < text.length then
      String.ofList (text.take (text.length - after)) ++ "." ++
        String.ofList (text.drop (text.length - after))
    else "0." ++ zeros (after - text.length) ++ toString digits

/-- Writes `digits * 10 ^ place` with one digit before the point, and the power of ten with its
sign. -/
def exponentText (digits : Nat) (place : Int) : String :=
  let text := (toString digits).toList
  let power := place + (text.length - 1 : Nat)
  let tail := match text.drop 1 with
    | [] => ""
    | more => "." ++ String.ofList more
  String.ofList (text.take 1) ++ tail ++ "e" ++ (if power < 0 then "-" else "+") ++
    toString power.natAbs

def finiteText (layout : Layout) (mantissa : Nat) (exponent : Int) : String :=
  let (digits, place) := Shortest.decimal layout.tie mantissa exponent
  let first := place + ((toString digits).length - 1 : Nat)
  match layout.positional with
  | some (low, high) =>
    if mantissa = 0 ∨ (low ≤ first ∧ first < high) then layout.positionalText digits place
    else exponentText digits place
  | none => layout.positionalText digits place

/-- Writes a double. -/
def text (layout : Layout) (x : Float) : String :=
  match Binary.ofFloat x with
  | .finite negative mantissa exponent =>
    (if negative then "-" else "") ++ layout.finiteText mantissa exponent
  | .infinite negative => if negative then "-inf" else "inf"
  | .nan => "NaN"

end Layout

end ModelQuery
