/-!
# Number systems

A plan is computed in some number system.  The program itself computes in whole
numbers and doubles; the same definitions read in rational numbers say what is
meant before rounding.
-/

namespace Montage

/-- The numbers in which a plan is computed. -/
class Arithmetic (α : Type) where
  /-- A whole number. -/
  ofInt : Int → α
  /-- The number one half. -/
  half : α
  /-- The number in fractional form: a whole number loses its own spelling. -/
  real : α → α
  /-- Whether the number has a fractional form, with which alone it can be
  computed. -/
  fits : α → Bool
  add : α → α → α
  sub : α → α → α
  div : α → α → α
  lt : α → α → Bool
  le : α → α → Bool
  eq : α → α → Bool
  /-- A number of halvings, and of doublings, that suffices to bring the number between one
  half and two if any number does. -/
  reach : α → Nat
  /-- The text of a number in a command line. -/
  text : α → String

namespace Arithmetic

variable {α : Type} [Arithmetic α]

/-- The number one. -/
def one : α := real (ofInt 1)

/-- The number two. -/
def two : α := real (ofInt 2)

/-- The number zero. -/
def zero : α := real (ofInt 0)

/-- Whether the number is at most zero. -/
def isAtMostZero (x : α) : Bool := le x zero

/-- Whether the number exceeds zero. -/
def isPositive (x : α) : Bool := lt zero x

/-- The larger of zero and `x`; zero unless `x` exceeds it. -/
def clampBelow (x : α) : α := if lt zero x then x else zero

end Arithmetic

/-- Exact arithmetic. -/
instance : Arithmetic Rat where
  ofInt n := n
  half := 1 / 2
  real x := x
  fits _ := true
  add := (· + ·)
  sub := (· - ·)
  div := (· / ·)
  lt x y := decide (x < y)
  le x y := decide (x ≤ y)
  eq x y := decide (x = y)
  reach x := x.num.natAbs.log2 + x.den.log2 + 1
  text x := toString x

end Montage
