import Montage.Arithmetic
import Montage.Decimal.FloatText
import Montage.Decimal.Numeral
import Montage.Failure

/-!
# Numbers of a request

The numbers a request can hold: whole numbers of any size, and doubles.  The two
kinds compare by exact value; a division always gives a double.
-/

namespace Montage

/-- A whole number or a double. -/
inductive Number
  | int (n : Int)
  | float (x : Float)
  deriving DecidableEq

namespace Number

/-- The nearest double; beyond the range of doubles, an infinity. -/
def toFloat : Number → Float
  | int n => Float.ofInt n
  | float x => x

/-- The nearest double, unless the whole number is too large for one. -/
def toFloat? (n : Number) : Except Fault Float :=
  match n with
  | int i => if (Float.ofInt i).isFinite then .ok (Float.ofInt i) else .error .tooLarge
  | float x => .ok x

/-- The exact value; infinities and not-a-number have none. -/
def toRat? : Number → Option Rat
  | int n => some n
  | float x => Decimal.toRat? x

/-- Compare by exact value with infinities at both ends; not-a-number satisfies
nothing. -/
def compareWith (finite : Rat → Rat → Bool) (floats : Float → Float → Bool) (a b : Number) : Bool :=
  match a.toRat?, b.toRat? with
  | some x, some y => finite x y
  | _, _ => floats (clip a) (clip b)
where
  /-- A stand-in of the same side for a comparison with an infinity. -/
  clip : Number → Float
    | int n => if n < 0 then -1.0 else 1.0
    | float x => x

/-- Whether the first number is less. -/
def lt (a b : Number) : Bool :=
  compareWith (fun x y => decide (x < y)) (fun x y => decide (x < y)) a b

/-- Whether the first number is at most the second. -/
def le (a b : Number) : Bool :=
  compareWith (fun x y => decide (x ≤ y)) (fun x y => decide (x ≤ y)) a b

/-- Whether the numbers are equal. -/
def eq (a b : Number) : Bool :=
  compareWith (fun x y => decide (x = y)) (fun x y => x == y) a b

/-- The decimal text of a number. -/
def text : Number → String
  | int n => toString n
  | float x => Decimal.fullText x

/-- The sum: whole if both are. -/
def add : Number → Number → Number
  | int a, int b => int (a + b)
  | a, b => float (a.toFloat + b.toFloat)

/-- The difference: whole if both are. -/
def sub : Number → Number → Number
  | int a, int b => int (a - b)
  | a, b => float (a.toFloat - b.toFloat)

/-- The quotient as a double. -/
def div (a b : Number) : Number := float (a.toFloat / b.toFloat)

/-- Whether a whole number is too long to be written out. -/
def isTooLong : Number → Bool
  | int n => n.natAbs ≥ Nat.pow 10 Decimal.digitLimit
  | float _ => false

/-- More halvings or doublings than any finite double needs. -/
def reachLimit : Nat := 1100

end Number

instance : Arithmetic Number where
  ofInt := .int
  half := .float 0.5
  real n := .float n.toFloat
  fits n := n.toFloat?.toBool
  add := Number.add
  sub := Number.sub
  div := Number.div
  lt := Number.lt
  le := Number.le
  eq := Number.eq
  reach _ := Number.reachLimit
  text := Number.text

end Montage
