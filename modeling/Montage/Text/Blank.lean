/-!
# White space

The characters that surround a value without belonging to it, and the operation
that takes them off both ends of a text.
-/

namespace Montage.Text

/-- White space of every script, the information separators U+001C to U+001F
included. -/
def isBlank (c : Char) : Bool :=
  let n := c.toNat
  (9 ≤ n && n ≤ 13) || (28 ≤ n && n ≤ 32) || n == 0x85 || n == 0xa0 || n == 0x1680 ||
    (0x2000 ≤ n && n ≤ 0x200a) || n == 0x2028 || n == 0x2029 || n == 0x202f || n == 0x205f ||
    n == 0x3000

/-- Drop the white space at the end. -/
def trimEnd (cs : List Char) : List Char :=
  (cs.reverse.dropWhile isBlank).reverse

/-- Drop the white space at both ends. -/
def trim (cs : List Char) : List Char :=
  trimEnd (cs.dropWhile isBlank)

/-- Drop the white space at both ends of a string. -/
def strip (s : String) : String := String.ofList (trim s.toList)

/-- Whether nothing but white space is there. -/
def isBlankText (s : String) : Bool := s.toList.all isBlank

theorem trimEnd_nil : trimEnd [] = [] := rfl

end Montage.Text
