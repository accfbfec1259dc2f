import Montage.Text.CodePoint
import Montage.Text.Visible

/-!
# Quoted text

How a text is shown inside a message: between quotes, with everything invisible
escaped.  Single quotes are used unless the text holds a single quote and no
double quote.
-/

namespace Montage.Text

/-- The last `width` hexadecimal digits of a number. -/
def hexPadded (width n : Nat) : List Char :=
  let digits := Nat.toDigits 16 n
  List.replicate (width - digits.length) '0' ++ digits

/-- The quote that surrounds a text. -/
def quoteFor (cs : List Char) : Char :=
  if cs.contains '\'' && !cs.contains '"' then '"' else '\''

/-- One code point inside the given quotes. -/
def quotePoint (quote : Char) (n : Nat) : List Char :=
  let c := Char.ofNat n
  if c == quote || c == '\\' then ['\\', c]
  else if c == '\n' then ['\\', 'n']
  else if c == '\r' then ['\\', 'r']
  else if c == '\t' then ['\\', 't']
  else if !isHalf n && isVisible c then [c]
  else if n < 0x100 then '\\' :: 'x' :: hexPadded 2 n
  else if n < 0x10000 then '\\' :: 'u' :: hexPadded 4 n
  else '\\' :: 'U' :: hexPadded 8 n

/-- A text between its quotes. -/
def quote (cs : List Char) : List Char :=
  let mark := quoteFor cs
  mark :: (codePoints cs).flatMap (quotePoint mark) ++ [mark]

/-- A string between its quotes. -/
def quoted (s : String) : String := String.ofList (quote s.toList)

end Montage.Text
