import Montage.Decimal.Shortest

/-!
# The text of a double

Two ways to write a double.  The full form has the shortest digits that read
back, always shows a point or an exponent, and is positional from 0.0001 up to
10^16.  The brief form has six digits at most, drops what it can, and is
positional from 0.0001 up to 10^6.
-/

namespace Montage.Decimal

/-- How the digits of a double are laid out. -/
structure Layout where
  /-- Positional writing is used while the leading digit stands below this power
  of ten. -/
  positionalBelow : Int
  /-- A whole number gets a point and a zero. -/
  pointZero : Bool
  deriving Repr

/-- The layout of the full form. -/
def Layout.full : Layout := ⟨16, true⟩

/-- The layout of the brief form. -/
def Layout.brief : Layout := ⟨6, false⟩

/-- An exponent with its sign and at least two digits. -/
def exponentText (e : Int) : String :=
  let digits := Nat.toDigits 10 e.natAbs
  (if e < 0 then "e-" else "e+") ++
    String.ofList (if digits.length < 2 then '0' :: digits else digits)

/-- Lay out a positive decimal. -/
def Layout.write (layout : Layout) (d : Digits) : String :=
  let digits := Nat.toDigits 10 d.digits
  let leading := d.exponent + digits.length - 1
  if leading < -4 || leading ≥ layout.positionalBelow then
    let mantissa := match digits with
      | [] => []
      | [c] => [c]
      | c :: rest => c :: '.' :: rest
    String.ofList mantissa ++ exponentText leading
  else if d.exponent ≥ 0 then
    String.ofList (digits ++ List.replicate d.exponent.toNat '0') ++
      (if layout.pointZero then ".0" else "")
  else if leading ≥ 0 then
    let whole := leading.toNat + 1
    String.ofList (digits.take whole ++ '.' :: digits.drop whole)
  else
    String.ofList ('0' :: '.' :: List.replicate (-leading - 1).toNat '0' ++ digits)

/-- Write a double, given how the digits of a positive one are found. -/
def writeWith (layout : Layout) (find : Nat → Int → Digits) (x : Float) : String :=
  match Binary.ofFloat x with
  | .nan => "nan"
  | .infinite negative => if negative then "-inf" else "inf"
  | .finite negative mantissa exponent =>
    let body :=
      if mantissa == 0 then (if layout.pointZero then "0.0" else "0")
      else layout.write (find mantissa exponent)
    if negative then "-" ++ body else body

/-- The full form: the fewest digits that read back as the same double. -/
def fullText (x : Float) : String := writeWith .full shortest x

/-- The brief form: six digits, less the zeros at their end. -/
def briefText (x : Float) : String := writeWith .brief (nearest 6) x

end Montage.Decimal
