/-! The exact value of a double, as a sign, a whole number and a power of two. -/

namespace ModelQuery

/-- What a double stands for. A finite one is `mantissa * 2 ^ exponent`, with a sign. -/
inductive Binary
  | finite (negative : Bool) (mantissa : Nat) (exponent : Int)
  | infinite (negative : Bool)
  | nan
  deriving DecidableEq, Repr

namespace Binary

/-- The value that 64 bits spell: a sign, eleven bits of exponent and 52 bits of fraction. -/
def ofBits (bits : Nat) : Binary :=
  let negative := decide (Nat.pow 2 63 ≤ bits)
  let exponent : Nat := bits / Nat.pow 2 52 % Nat.pow 2 11
  let fraction : Nat := bits % Nat.pow 2 52
  if exponent = 2047 then
    if fraction = 0 then infinite negative else nan
  else if exponent = 0 then finite negative fraction (-1074)
  else finite negative (Nat.pow 2 52 + fraction) (exponent - 1075)

def ofFloat (x : Float) : Binary :=
  ofBits x.toBits.toNat

def isFinite : Binary → Bool
  | finite .. => true
  | infinite _ | nan => false

/-- The whole number that a double stands for, when it stands for one. -/
def toInt? : Binary → Option Int
  | finite negative mantissa exponent =>
    let signed (n : Nat) : Int := if negative then -(n : Int) else n
    if 0 ≤ exponent then some (signed (mantissa * Nat.pow 2 exponent.toNat))
    else
      let unit := Nat.pow 2 (-exponent).toNat
      if mantissa % unit = 0 then some (signed (mantissa / unit)) else none
  | infinite _ | nan => none

end Binary

end ModelQuery
