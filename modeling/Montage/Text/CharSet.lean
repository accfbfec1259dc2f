/-!
# Sets of characters

A set of characters is kept as the ascending list of code points at which
membership changes.  A character is inside exactly when an odd number of changes
lies at or below it.
-/

namespace Montage.Text

/-- A set of characters, given by the code points at which membership
changes. -/
structure CharSet where
  changes : List Nat
  deriving Repr

namespace CharSet

/-- Follow the changes up to the code point `n`, starting from `inside`. -/
def scan (n : Nat) : Bool → List Nat → Bool
  | inside, [] => inside
  | inside, change :: rest => if n < change then inside else scan n (!inside) rest

/-- Membership of a character. -/
def contains (set : CharSet) (c : Char) : Bool :=
  scan c.toNat false set.changes

end CharSet

end Montage.Text
