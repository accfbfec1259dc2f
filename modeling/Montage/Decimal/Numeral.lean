import Montage.Text.Blank
import Montage.Text.Digit

/-!
# Reading numerals

Whole numbers and decimals as people type them: digits of any script, white
space around, a sign, and single underscores between digits.  A whole number has
at most 4300 digits when it is written in a base that is not a power of two.
-/

namespace Montage.Decimal

open Montage.Text

/-- The most digits a decimal whole number may have, read or written. -/
def digitLimit : Nat := 4300

/-- A digit of any script becomes an ASCII digit and any wide space a plain
one. -/
def plainChar (c : Char) : Char :=
  if c.toNat < 127 then c
  else if isBlank c then ' '
  else match digitValue? c with
    | some n => Nat.digitChar n
    | none => '?'

/-- The white space that may surround a numeral once its characters are
plain. -/
def isPlainBlank (c : Char) : Bool :=
  let n := c.toNat
  n == 32 || (9 ≤ n && n ≤ 13)

/-- The plain characters of a numeral without the white space around it. -/
def plain (cs : List Char) : List Char :=
  ((((cs.map plainChar).dropWhile isPlainBlank).reverse).dropWhile isPlainBlank).reverse

/-- Split off a leading sign; the flag is set for a minus. -/
def takeSign : List Char → Bool × List Char
  | '-' :: rest => (true, rest)
  | '+' :: rest => (false, rest)
  | cs => (false, cs)

/-- Drop underscores, each of which must stand between two digits; `digit` tells
whether the character before is a digit. -/
def joinDigits (isDigit : Char → Bool) : Bool → List Char → Option (List Char)
  | _, [] => some []
  | digit, '_' :: rest =>
    match rest with
    | c :: _ => if digit && isDigit c then joinDigits isDigit false rest else none
    | [] => none
  | _, c :: rest => (joinDigits isDigit (isDigit c) rest).map (c :: ·)

/-- The value of a digit in a base up to sixteen. -/
def digitIn? (base : Nat) (c : Char) : Option Nat :=
  match hexDigit? c with
  | some n => if n < base then some n else none
  | none => none

/-- The value of a run of digits read after `acc`. -/
def natIn? (base : Nat) : Nat → List Char → Option Nat
  | acc, [] => some acc
  | acc, c :: rest =>
    match digitIn? base c with
    | some n => natIn? base (acc * base + n) rest
    | none => none

/-- Drop the marker of a base, such as `0x`, and an underscore after it. -/
def dropBaseMarker (base : Nat) : List Char → List Char
  | '0' :: m :: rest =>
    let marked := (base == 2 && (m == 'b' || m == 'B')) || (base == 8 && (m == 'o' || m == 'O')) ||
      (base == 16 && (m == 'x' || m == 'X'))
    if marked then
      match rest with
      | '_' :: rest => rest
      | rest => rest
    else '0' :: m :: rest
  | cs => cs

/-- Why a text is no whole number. -/
inductive NumeralError
  | malformed
  | tooLong (digits : Nat)
  deriving Repr, DecidableEq

/-- Read a whole number in the given base. -/
def readInteger (base : Nat) (cs : List Char) : Except NumeralError Int :=
  let (negative, body) := takeSign (plain cs)
  let body := dropBaseMarker base body
  let isDigit := fun c => (digitIn? base c).isSome
  match joinDigits isDigit false body with
  | none | some [] => .error .malformed
  | some digits =>
    if !digits.all isDigit then .error .malformed
    else if base == 10 && digits.length > digitLimit then .error (.tooLong digits.length)
    else match natIn? base 0 digits with
      | some n => .ok (if negative then -(n : Int) else n)
      | none => .error .malformed

/-- Read a decimal whole number. -/
def readInt? (s : String) : Option Int := (readInteger 10 s.toList).toOption

/-- The double nearest to `mantissa * 10 ^ exponent`. -/
def nearestFloat (mantissa : Nat) (exponent : Int) : Float :=
  if mantissa == 0 then 0.0
  else
    let top := exponent + (Nat.toDigits 10 mantissa).length
    if top > 310 then 1.0 / 0.0
    else if top < -330 then 0.0
    else Float.ofScientific mantissa (exponent < 0) exponent.natAbs

/-- Read the exponent part of a decimal: nothing, or a letter, a sign and
digits. -/
def readExponent? : List Char → Option Int
  | [] => some 0
  | c :: rest =>
    if c == 'e' || c == 'E' then
      let (negative, digits) := takeSign rest
      if digits.isEmpty then none
      else (natIn? 10 0 digits).map fun n => if negative then -(n : Int) else n
    else none

/-- Read an unsigned decimal. -/
def readUnsigned? (cs : List Char) : Option Float :=
  let whole := cs.takeWhile Char.isDigit
  let rest := cs.dropWhile Char.isDigit
  let (fraction, rest) := match rest with
    | '.' :: rest => (rest.takeWhile Char.isDigit, rest.dropWhile Char.isDigit)
    | rest => ([], rest)
  if whole.isEmpty && fraction.isEmpty then none
  else
    match readExponent? rest, natIn? 10 0 (whole ++ fraction) with
    | some e, some n => some (nearestFloat n (e - fraction.length))
    | _, _ => none

/-- Read a decimal, an infinity or a not-a-number. -/
def readFloatChars? (cs : List Char) : Option Float :=
  match joinDigits Char.isDigit false (plain cs) with
  | none => none
  | some cs =>
    let (negative, body) := takeSign cs
    let word := String.ofList (body.map Char.toLower)
    let value :=
      if word == "inf" || word == "infinity" then some (1.0 / 0.0)
      else if word == "nan" then some (0.0 / 0.0)
      else readUnsigned? body
    value.map fun x => if negative then -x else x

/-- Read a decimal, an infinity or a not-a-number. -/
def readFloat? (s : String) : Option Float := readFloatChars? s.toList

end Montage.Decimal
