/-!
# Code points

A text is a sequence of code points.  The halves of surrogate pairs are code points
to which no character belongs, so a half that stands alone is written as two
characters, a mark and a private character that tells which half it is.  The last
two code points of all, which no script uses, serve as the marks, and are written
in the same way where they are meant themselves.

What the system is handed is encoded.  Most halves have no encoding; those from
U+DC80 to U+DCFF stand for single bytes.
-/

namespace Montage.Text

/-- The mark of a half that cannot be encoded. -/
def halfMark : Char := Char.ofNat 0x10ffff

/-- The mark of any other code point that is not written as itself. -/
def spareMark : Char := Char.ofNat 0x10fffe

/-- Whether the code point is half of a surrogate pair. -/
def isHalf (n : Nat) : Bool := 0xd800 ≤ n && n < 0xe000

/-- Whether the half stands for a single byte. -/
def isByteHalf (n : Nat) : Bool := 0xdc80 ≤ n && n < 0xdd00

/-- The characters of a code point. -/
def ofCodePoint (n : Nat) : List Char :=
  if isHalf n then
    [if isByteHalf n then spareMark else halfMark, Char.ofNat (0xf0000 + (n - 0xd800))]
  else if n < 0x10fffe then [Char.ofNat n]
  else [spareMark, Char.ofNat (0xf0800 + (n - 0x10fffe))]

/-- The code point behind a mark. -/
def markedPoint (c : Char) : Nat :=
  if c.toNat < 0xf0800 then 0xd800 + (c.toNat - 0xf0000) else 0x10fffe + (c.toNat - 0xf0800)

/-- The code points of a text. -/
def codePoints : List Char → List Nat
  | [] => []
  | [c] => [c.toNat]
  | c :: d :: rest =>
    if c == halfMark || c == spareMark then markedPoint d :: codePoints rest
    else c.toNat :: codePoints (d :: rest)

/-- Whether the system takes the text: it holds no null character, and all of it can
be encoded. -/
def isSendable (cs : List Char) : Bool := cs.all fun c => c != '\x00' && c != halfMark

/-- The number of bytes of an encoded code point. -/
def pointSize (n : Nat) : Nat :=
  if isByteHalf n then 1
  else if n < 0x80 then 1
  else if n < 0x800 then 2
  else if n < 0x10000 then 3
  else 4

/-- The number of bytes of an encoded text. -/
def byteCount (cs : List Char) : Nat :=
  (codePoints cs).foldl (fun count n => count + pointSize n) 0

end Montage.Text
