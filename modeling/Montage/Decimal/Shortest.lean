import Montage.Decimal.Binary

/-!
# Shortest decimals

Among the decimals that read back as a given double, the one with the fewest
digits, and of those the nearest.  The decimals that read back form an interval
around the double; for one digit, two digits and so on the two neighbours of the
double on that decimal grid are tested against the interval, in whole numbers
throughout.
-/

namespace Montage.Decimal

/-- A positive decimal `digits * 10 ^ exponent`. -/
structure Digits where
  digits : Nat
  exponent : Int
  deriving Repr, DecidableEq

/-- The interval of numbers that round to a double, over a common
denominator. -/
structure Interval where
  low : Nat
  value : Nat
  high : Nat
  den : Nat
  closed : Bool

/-- The numbers that round to `mantissa * 2 ^ exponent`: half a step on either
side, with a shorter step below a power of two, and with both ends if the
mantissa is even. -/
def Interval.around (mantissa : Nat) (exponent : Int) : Interval :=
  let down := if mantissa == Nat.pow 2 52 && exponent > -1074 then 1 else 2
  let scale := exponent - 2
  let up := if scale ≥ 0 then Nat.pow 2 scale.toNat else 1
  { low := (4 * mantissa - down) * up
    value := 4 * mantissa * up
    high := (4 * mantissa + 2) * up
    den := if scale ≥ 0 then 1 else Nat.pow 2 (-scale).toNat
    closed := mantissa % 2 == 0 }

/-- Measure the interval in units of `10 ^ k`. -/
def Interval.inUnits (i : Interval) (k : Int) : Interval :=
  if k ≥ 0 then { i with den := i.den * Nat.pow 10 k.toNat }
  else
    let up := Nat.pow 10 (-k).toNat
    { i with low := i.low * up, value := i.value * up, high := i.high * up }

/-- Whether the whole number `n` lies in the interval. -/
def Interval.holds (i : Interval) (n : Nat) : Bool :=
  if i.closed then i.low ≤ n * i.den && n * i.den ≤ i.high
  else i.low < n * i.den && n * i.den < i.high

/-- Of the two whole numbers next to the value, the one inside the interval and
nearest; a tie goes to the even one. -/
def Interval.pick? (i : Interval) : Option Nat :=
  let floor := i.value / i.den
  let below := i.holds floor && floor > 0
  let above := i.holds (floor + 1)
  if below && above then
    let twice := 2 * (i.value - floor * i.den)
    if twice < i.den then some floor
    else if twice > i.den then some (floor + 1)
    else if floor % 2 == 0 then some floor else some (floor + 1)
  else if below then some floor
  else if above then some (floor + 1)
  else none

/-- The least `j` at most `bound` with `den ≤ num * 10 ^ j`. -/
def climb (num den : Nat) : Nat → Nat → Nat
  | 0, j => j
  | fuel + 1, j => if den ≤ num then j else climb (num * 10) den fuel (j + 1)

/-- The power of ten of the leading digit of `num / den`. -/
def magnitude (num den : Nat) : Int :=
  if den ≤ num then ((Nat.toDigits 10 (num / den)).length : Int) - 1
  else -((climb num den 400 0 : Nat) : Int)

/-- Try grids of `count` digits, then one more digit, and so on. -/
def search (i : Interval) (top : Int) : Nat → Nat → Digits
  | 0, count =>
    let k := top - count + 1
    ⟨((i.inUnits k).value / (i.inUnits k).den), k⟩
  | fuel + 1, count =>
    let k := top - count + 1
    match (i.inUnits k).pick? with
    | some n => ⟨n, k⟩
    | none => search i top fuel (count + 1)

/-- Drop the zeros at the end of the digits. -/
def Digits.normalize (d : Digits) : Nat → Digits
  | 0 => d
  | fuel + 1 =>
    if d.digits % 10 == 0 && d.digits != 0 then
      Digits.normalize ⟨d.digits / 10, d.exponent + 1⟩ fuel
    else d

/-- The shortest decimal that reads back as the positive double `mantissa * 2 ^
exponent`. -/
def shortest (mantissa : Nat) (exponent : Int) : Digits :=
  let i := Interval.around mantissa exponent
  (search i (magnitude i.value i.den) 17 1).normalize 20

/-- The decimal of `count` digits nearest to a positive number; a tie goes to
the even digit. -/
def nearest (count : Nat) (mantissa : Nat) (exponent : Int) : Digits :=
  let (num, den) := ratio mantissa exponent
  let k := magnitude num den - count + 1
  let (num, den) :=
    if k ≥ 0 then (num, den * Nat.pow 10 k.toNat) else (num * Nat.pow 10 (-k).toNat, den)
  let floor := num / den
  let twice := 2 * (num - floor * den)
  let up := twice > den || (twice == den && floor % 2 == 1)
  Digits.normalize ⟨if up then floor + 1 else floor, k⟩ 20

end Montage.Decimal
