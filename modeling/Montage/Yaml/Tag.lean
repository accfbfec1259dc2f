import Montage.Yaml.Cursor

/-!
# Tags of YAML nodes

The kinds of node a document can hold, and the kind that a plain scalar has by
its spelling alone.
-/

namespace Montage.Yaml

/-- The kind of a node. -/
inductive Tag
  | null
  | bool
  | int
  | float
  | text
  | binary
  | timestamp
  | orderedMap
  | pairs
  | set
  | sequence
  | mapping
  | merge
  | defaultValue
  | other (name : String)
  deriving Repr, DecidableEq

namespace Tag

/-- The common stem of the standard kinds. -/
def stem : String := "tag:yaml.org,2002:"

/-- The standard kinds by name. -/
def table : List (String × Tag) :=
  [("null", null), ("bool", bool), ("int", int), ("float", float), ("str", text),
    ("binary", binary), ("timestamp", timestamp), ("omap", orderedMap), ("pairs", pairs),
    ("set", set), ("seq", sequence), ("map", mapping), ("merge", merge), ("value", defaultValue)]

/-- The kind with a full name. -/
def ofName (name : String) : Tag :=
  match (table.map fun entry => (stem ++ entry.1, entry.2)).lookup name with
  | some tag => tag
  | none => other name

/-! ## Spellings

Each recogniser takes a text apart from the left and says whether nothing is left over. -/

/-- The text without a sign at its start. -/
def dropSign : List Char → List Char
  | '+' :: rest => rest
  | '-' :: rest => rest
  | cs => cs

/-- Whether the character is a digit or an underscore. -/
def isDigitMark (c : Char) : Bool := c.isDigit || c == '_'

/-- Whether a text is a word of a list. -/
def isWord (words : List String) (cs : List Char) : Bool := words.contains (String.ofList cs)

/-- Whether a text is not empty and consists of characters of a class. -/
def isRun (p : Char → Bool) (cs : List Char) : Bool := !cs.isEmpty && cs.all p

/-- Whether a text is one or two digits, the first of two at most five. -/
def isSixtieth : List Char → Bool
  | [a] => a.isDigit
  | [a, b] => a.isDigit && a ≤ '5' && b.isDigit
  | _ => false

/-- Whether a text is nothing, or an exponent with a sign. -/
def isExponent : List Char → Bool
  | [] => true
  | e :: sign :: digits =>
    (e == 'e' || e == 'E') && (sign == '+' || sign == '-') && isRun Char.isDigit digits
  | _ => false

/-- Whether a text spells a truth value. -/
def spellsBool (cs : List Char) : Bool :=
  isWord ["yes", "Yes", "YES", "no", "No", "NO", "true", "True", "TRUE", "false", "False", "FALSE",
    "on", "On", "ON", "off", "Off", "OFF"] cs

/-- Whether a text spells the absence of a value. -/
def spellsNull (cs : List Char) : Bool := isWord ["~", "null", "Null", "NULL", ""] cs

/-- Whether a text spells a number with a point, in base ten or sixty. -/
def spellsFloat (cs : List Char) : Bool :=
  let body := dropSign cs
  let whole := body.takeWhile isDigitMark
  let startsDigit := (body.head?.map Char.isDigit).getD false
  let decimal := startsDigit &&
    match body.drop whole.length with
    | '.' :: rest => isExponent (rest.dropWhile isDigitMark)
    | _ => false
  let fraction :=
    match cs with
    | '.' :: d :: rest => d.isDigit && isExponent (rest.dropWhile isDigitMark)
    | _ => false
  let sixty := startsDigit &&
    match (body.splitOn ':') with
    | first :: second :: parts =>
      let parts := second :: parts
      let last := parts.getLast?.getD []
      first.all isDigitMark && parts.dropLast.all isSixtieth &&
        isSixtieth (last.takeWhile (· != '.')) &&
        match last.dropWhile (· != '.') with
        | '.' :: rest => rest.all isDigitMark
        | _ => false
    | _ => false
  decimal || fraction || sixty || isWord [".inf", ".Inf", ".INF"] body ||
    isWord [".nan", ".NaN", ".NAN"] cs

/-- Whether the character is a hexadecimal digit or an underscore. -/
def isHexMark (c : Char) : Bool :=
  isDigitMark c || ('a' ≤ c && c ≤ 'f') || ('A' ≤ c && c ≤ 'F')

/-- Whether a text spells a whole number in base two, eight, ten, sixteen or
sixty. -/
def spellsInt (cs : List Char) : Bool :=
  let body := dropSign cs
  match body with
  | ['0'] => true
  | '0' :: 'b' :: rest => isRun (fun c => c == '0' || c == '1' || c == '_') rest
  | '0' :: 'x' :: rest => isRun isHexMark rest
  | '0' :: rest => isRun (fun c => ('0' ≤ c && c ≤ '7') || c == '_') rest
  | d :: _ =>
    d.isDigit &&
      match body.splitOn ':' with
      | first :: parts => first.all isDigitMark && parts.all isSixtieth
      | [] => false
  | [] => false

/-- The parts of a moment: the digits of year, month and day, and then of hour,
minute, second, fraction and the distance from universal time, as far as they
are there. -/
structure MomentParts where
  year : List Char
  month : List Char
  day : List Char
  hour : List Char := []
  minute : List Char := []
  second : List Char := []
  fraction : List Char := []
  /-- Whether a distance from universal time is given at all. -/
  zoned : Bool := false
  zoneSign : Option Char := none
  zoneHour : List Char := []
  zoneMinute : List Char := []
  deriving Repr

/-- One or two digits at the start of a text. -/
def shortNumber? (cs : List Char) : Option (List Char × List Char) :=
  let digits := (cs.take 2).takeWhile Char.isDigit
  if digits.isEmpty then none else some (digits, cs.drop digits.length)

/-- A number of digits at the start of a text. -/
def digits? (count : Nat) (cs : List Char) : Option (List Char × List Char) :=
  let digits := cs.take count
  if digits.length == count && digits.all Char.isDigit then some (digits, cs.drop count) else none

/-- A character at the start of a text. -/
def char? (c : Char) : List Char → Option (List Char)
  | d :: rest => if d == c then some rest else none
  | [] => none

/-- The distance from universal time that ends a moment. -/
def zoneParts? (parts : MomentParts) (cs : List Char) : Option MomentParts :=
  match cs.dropWhile fun c => c == ' ' || c == '\t' with
  | [] => if cs.isEmpty then some parts else none
  | ['Z'] => some { parts with zoned := true }
  | sign :: rest =>
    if sign == '+' || sign == '-' then do
      let (hour, rest) ← shortNumber? rest
      let parts := { parts with zoned := true, zoneSign := some sign, zoneHour := hour }
      match rest with
      | [] => some parts
      | rest =>
        let (minute, rest) ← digits? 2 (← char? ':' rest)
        if rest.isEmpty then some { parts with zoneMinute := minute } else none
    else none

/-- The time of day that follows a date. -/
def timeParts? (parts : MomentParts) (cs : List Char) : Option MomentParts := do
  let cs ← match cs with
    | 't' :: rest => some rest
    | 'T' :: rest => some rest
    | c :: _ =>
      if c == ' ' || c == '\t' then some (cs.dropWhile fun c => c == ' ' || c == '\t') else none
    | [] => none
  let (hour, cs) ← shortNumber? cs
  let (minute, cs) ← digits? 2 (← char? ':' cs)
  let (second, cs) ← digits? 2 (← char? ':' cs)
  let parts := { parts with hour, minute, second }
  match cs with
  | '.' :: rest =>
    let fraction := rest.takeWhile Char.isDigit
    zoneParts? { parts with fraction } (rest.drop fraction.length)
  | cs => zoneParts? parts cs

/-- A date, with or without a time of day. -/
def momentParts? (cs : List Char) : Option MomentParts := do
  let (year, cs) ← digits? 4 cs
  let (month, cs) ← shortNumber? (← char? '-' cs)
  let (day, cs) ← shortNumber? (← char? '-' cs)
  let parts : MomentParts := { year, month, day }
  if cs.isEmpty then some parts else timeParts? parts cs

/-- Whether a text spells a date or a moment.  A date alone needs two digits for
month and day. -/
def spellsTimestamp (cs : List Char) : Bool :=
  match momentParts? cs with
  | none => false
  | some parts => !parts.hour.isEmpty || (parts.month.length == 2 && parts.day.length == 2)

/-- A text without one line feed at its end. -/
def dropLineFeed (cs : List Char) : List Char :=
  if cs.getLast? == some '\n' then cs.dropLast else cs

/-- The kind that a plain scalar has by its spelling. -/
def ofPlain (text : String) : Tag :=
  let cs := dropLineFeed text.toList
  if spellsBool cs then bool
  else if spellsFloat cs then float
  else if spellsInt cs then int
  else if cs == ['<', '<'] then merge
  else if spellsNull cs && (text.isEmpty || !cs.isEmpty) then null
  else if spellsTimestamp cs then timestamp
  else if cs == ['='] then defaultValue
  else if isWord ["!", "&", "*"] cs then other (stem ++ "yaml")
  else Tag.text

end Tag

end Montage.Yaml
