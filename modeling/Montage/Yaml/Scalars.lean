import Montage.Value.Numeral
import Montage.Text.Case
import Montage.Yaml.Tag

/-!
# Values of scalars

The value of a scalar of each kind, from its text.
-/

namespace Montage.Yaml.Scalars

/-- The text without underscores. -/
def dropUnderscores (text : String) : List Char := text.toList.filter (· != '_')

/-- Split off a sign; the flag is set for a minus. -/
def takeSign : List Char → Bool × List Char
  | '-' :: rest => (true, rest)
  | '+' :: rest => (false, rest)
  | cs => (false, cs)

/-- A whole number in a base. -/
def inBase (base : Nat) (cs : List Char) : Except Error Int :=
  match Decimal.readInteger base cs with
  | .ok n => .ok n
  | .error _ => .error (.fault .badValue)

/-- Numbers between colons, of which each counts sixty times the next. -/
def sixties (parts : List Int) : Int := parts.foldl (fun value n => value * 60 + n) 0

/-- A truth value. -/
def bool (text : String) : Except Error Value :=
  let word := Text.lowerCase text
  if ["yes", "true", "on"].contains word then .ok (.bool true)
  else if ["no", "false", "off"].contains word then .ok (.bool false)
  else .error (.fault .noSuchKey)

/-- A whole number: binary after `0b`, hexadecimal after `0x`, octal after `0`,
in base sixty between colons and decimal otherwise. -/
def int (text : String) : Except Error Value := do
  let cs := dropUnderscores text
  if cs.isEmpty then throw (.fault .outOfRange)
  let (negative, body) := takeSign cs
  let n ← match body with
    | ['0'] => pure 0
    | '0' :: 'b' :: rest => inBase 2 rest
    | '0' :: 'x' :: rest => inBase 16 rest
    | '0' :: _ => inBase 8 body
    | [] => throw (.fault .outOfRange)
    | body =>
      if body.contains ':' then sixties <$> (body.splitOn ':').mapM (inBase 10)
      else inBase 10 body
  return .number (.int (if negative then -n else n))

/-- A double. -/
def double (cs : List Char) : Except Error Float :=
  match Decimal.readFloatChars? cs with
  | some x => .ok x
  | none => .error (.fault .badValue)

/-- Add up the parts of a number in base sixty, the last part first. -/
def sumSixties : Nat → Float → List Float → Except Error Float
  | _, sum, [] => .ok sum
  | weight, sum, x :: rest =>
    match (Number.int weight).toFloat? with
    | .error fault => .error (.fault fault)
    | .ok w => sumSixties (weight * 60) (sum + x * w) rest

/-- A number with a point, in base ten or between colons in base sixty; an
infinity; or not a number. -/
def float (text : String) : Except Error Value := do
  let cs := Text.lower (dropUnderscores text)
  if cs.isEmpty then throw (.fault .outOfRange)
  let (negative, body) := takeSign cs
  let signed (x : Float) : Value := .number (.float ((if negative then -1.0 else 1.0) * x))
  if body == ".inf".toList then return signed (1.0 / 0.0)
  else if body == ".nan".toList then return .number (.float (0.0 / 0.0))
  else if body.contains ':' then
    let parts ← (body.splitOn ':').mapM double
    return signed (← sumSixties 1 0.0 parts.reverse)
  else return signed (← double body)

/-- The value of a character of base 64. -/
def sixtyFour? (c : Char) : Option Nat :=
  if 'A' ≤ c && c ≤ 'Z' then some (c.toNat - 65)
  else if 'a' ≤ c && c ≤ 'z' then some (c.toNat - 71)
  else if c.isDigit then some (c.toNat + 4)
  else if c == '+' then some 62
  else if c == '/' then some 63
  else none

/-- Bytes from base 64.  `place` counts the characters of the current group of
four, `left` holds the bits that are not used up and `pads` counts equals signs
in a row; other characters are ignored. -/
def bytesFrom (place left pads : Nat) : List Char → Option (List UInt8)
  | [] => if place == 0 then some [] else none
  | c :: rest =>
    if c == '=' then
      if place ≥ 2 then
        if place + (pads + 1) ≥ 4 then some [] else bytesFrom place left (pads + 1) rest
      else bytesFrom place left pads rest
    else
      match sixtyFour? c with
      | none => bytesFrom place left pads rest
      | some n =>
        if place == 0 then bytesFrom 1 n 0 rest
        else if place == 1 then
          (bytesFrom 2 (n % 16) 0 rest).map (UInt8.ofNat (left * 4 + n / 16) :: ·)
        else if place == 2 then
          (bytesFrom 3 (n % 4) 0 rest).map (UInt8.ofNat (left * 16 + n / 4) :: ·)
        else (bytesFrom 0 0 0 rest).map (UInt8.ofNat (left * 64 + n) :: ·)

/-- Bytes, written in base 64. -/
def binary (text : String) : Except Error Value :=
  let cs := text.toList
  if cs.all (·.toNat < 128) then
    match bytesFrom 0 0 0 cs with
    | some bytes => .ok (.bytes bytes)
    | none => .error .malformed
  else .error .malformed

/-- The value of decimal digits. -/
def natOf (cs : List Char) : Nat := Nat.ofDigitChars 10 cs 0

/-- The millionths of a second in a fraction, of which six digits count. -/
def microseconds (fraction : List Char) : Nat :=
  let digits := fraction.take 6
  natOf (digits ++ List.replicate (6 - digits.length) '0')

/-- The distance from universal time in seconds, if one is given. -/
def zone (parts : Tag.MomentParts) : Option Int :=
  if !parts.zoned then none
  else
    let seconds : Int := (natOf parts.zoneHour * 60 + natOf parts.zoneMinute) * 60
    some (if parts.zoneSign == some '-' then -seconds else seconds)

/-- A date or a moment. -/
def timestamp (text : String) : Except Error Value := do
  match Tag.momentParts? (Tag.dropLineFeed text.toList) with
  | none => throw (.fault .noSuchField)
  | some parts =>
    match Date.ofParts? (natOf parts.year) (natOf parts.month) (natOf parts.day) with
    | none => throw (.fault .badValue)
    | some date =>
      if parts.hour.isEmpty then return .date date
      match Moment.ofParts? date (natOf parts.hour) (natOf parts.minute) (natOf parts.second)
          (microseconds parts.fraction) (zone parts) with
      | none => throw (.fault .badValue)
      | some moment => return .moment moment

end Montage.Yaml.Scalars
