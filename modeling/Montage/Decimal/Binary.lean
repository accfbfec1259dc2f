/-!
# Doubles as exact numbers

A finite double is a sign, a whole mantissa and a power of two.  Everything that
prints a double starts from these three, so that it computes with whole numbers
only.
-/

namespace Montage.Decimal

/-- What a double stands for. -/
inductive Binary
  | nan
  | infinite (negative : Bool)
  /-- The number `mantissa * 2 ^ exponent`, negated if `negative`. -/
  | finite (negative : Bool) (mantissa : Nat) (exponent : Int)
  deriving Repr, DecidableEq

/-- Read the sign, exponent and fraction fields of a double. -/
def Binary.ofFloat (x : Float) : Binary :=
  let bits := x.toBits.toNat
  let negative := bits / Nat.pow 2 63 == 1
  let biased : Nat := bits / Nat.pow 2 52 % Nat.pow 2 11
  let fraction : Nat := bits % Nat.pow 2 52
  if biased == 2047 then
    if fraction == 0 then .infinite negative else .nan
  else if biased == 0 then .finite negative fraction (-1074)
  else .finite negative (fraction + Nat.pow 2 52) ((biased : Int) - 1075)

/-- A ratio of whole numbers equal to `mantissa * 2 ^ exponent`. -/
def ratio (mantissa : Nat) (exponent : Int) : Nat × Nat :=
  if exponent ≥ 0 then (mantissa * Nat.pow 2 exponent.toNat, 1)
  else (mantissa, Nat.pow 2 (-exponent).toNat)

/-- The whole part of a finite double, cut toward zero. -/
def Binary.truncate? : Binary → Option Int
  | .finite negative mantissa exponent =>
    let (num, den) := ratio mantissa exponent
    some (if negative then -((num / den : Nat) : Int) else ((num / den : Nat) : Int))
  | _ => none

/-- The double as an exact rational number. -/
def Binary.toRat? : Binary → Option Rat
  | .finite negative mantissa exponent =>
    let (num, den) := ratio mantissa exponent
    some (mkRat (if negative then -(num : Int) else num) den)
  | _ => none

/-- The double as an exact rational number, if it is finite. -/
def toRat? (x : Float) : Option Rat := (Binary.ofFloat x).toRat?

/-- The whole part of a double, cut toward zero, if it is finite. -/
def truncate? (x : Float) : Option Int := (Binary.ofFloat x).truncate?

end Montage.Decimal
