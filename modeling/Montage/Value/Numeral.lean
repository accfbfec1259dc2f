import Montage.Value.Text

/-!
# Values as numbers

How a value that should be a number is read as a double, and how it is written
as a numeric argument.
-/

namespace Montage.Value

/-- The characters of a numeral that is given in bytes. -/
def plainBytes? (bs : List UInt8) : Option (List Char) :=
  if bs.all (· < 128) then some (bs.map fun b => Char.ofNat b.toNat) else none

/-- A value as a double: a number, a truth value, or a text or bytes that spell
a number. -/
def toFloat? (v : Value) : Except Failure (Option Float) :=
  match v with
  | number n =>
    match n.toFloat? with
    | .ok x => .ok (some x)
    | .error fault => .error (.fault fault)
  | bool b => .ok (some (if b then 1.0 else 0.0))
  | text s => .ok (Decimal.readFloat? s)
  | bytes bs => .ok ((plainBytes? bs).bind Decimal.readFloatChars?)
  | _ => .ok none

/-- A value as a numeric argument: whole numbers keep their digits, doubles have
their shortest text and texts are read as doubles.  Truth values are no
numbers. -/
def numberText (v : Value) : Except Failure String :=
  match v with
  | bool _ => .error (.fault .badValue)
  | number n => if n.isTooLong then .error (.fault .badValue) else .ok n.text
  | v =>
    match v.toFloat? with
    | .error failure => .error failure
    | .ok (some x) => .ok (Decimal.fullText x)
    | .ok none =>
      match v with
      | text _ | bytes _ => .error (.fault .badValue)
      | _ => .error (.fault .wrongType)

end Montage.Value
