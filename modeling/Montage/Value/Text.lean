import Montage.Value.Basic

/-!
# Values as text

How a value is shown.  Inside a message it is quoted: texts stand between quotes
and every kind can be told apart.  Where a text is expected, a text stands for
itself and any other value is shown as in a message, dates by their digits.  A
whole number with too many digits cannot be shown at all, nor can collections that
are nested deeper than the runtime follows.
-/

namespace Montage.Value

/-- Whether a whole number that is too long to be written out lies inside. -/
def hasLongNumber : Value → Bool
  | number n => n.isTooLong
  | list items => anyLong items
  | set items => anyLong items
  | pair first second => first.hasLongNumber || second.hasLongNumber
  | map entries => anyLongEntry entries
  | _ => false
where
  /-- Whether one of the items holds such a number. -/
  anyLong : List Value → Bool
    | [] => false
    | v :: rest => v.hasLongNumber || anyLong rest
  /-- Whether one of the entries holds such a number. -/
  anyLongEntry : List (Value × Value) → Bool
    | [] => false
    | (k, v) :: rest => k.hasLongNumber || v.hasLongNumber || anyLongEntry rest

/-- The number of collections that lie one inside the other. -/
def depth : Value → Nat
  | list items => itemsDepth items + 1
  | set items => itemsDepth items + 1
  | pair first second => max first.depth second.depth + 1
  | map entries => entriesDepth entries + 1
  | _ => 0
where
  /-- The depth of the deepest of the items. -/
  itemsDepth : List Value → Nat
    | [] => 0
    | v :: rest => max v.depth (itemsDepth rest)
  /-- The depth of the deepest key or value of the entries. -/
  entriesDepth : List (Value × Value) → Nat
    | [] => 0
    | (k, v) :: rest => max (max k.depth v.depth) (entriesDepth rest)

/-- Whether the value cannot be shown. -/
def isUnshowable (v : Value) : Bool := callLimit < v.depth || v.hasLongNumber

/-- Bytes between quotes. -/
def bytesText (bs : List UInt8) : String :=
  let cs := bs.map fun b => Char.ofNat b.toNat
  let mark := Text.quoteFor cs
  let one (c : Char) : List Char :=
    if c == mark || c == '\\' then ['\\', c]
    else if c == '\n' then ['\\', 'n']
    else if c == '\r' then ['\\', 'r']
    else if c == '\t' then ['\\', 't']
    else if 32 ≤ c.toNat && c.toNat < 127 then [c]
    else '\\' :: 'x' :: Text.hexPadded 2 c.toNat
  String.ofList ('b' :: mark :: cs.flatMap one ++ [mark])

/-- A date in a message. -/
def dateText (d : Date) : String :=
  "datetime.date(" ++ ", ".intercalate [toString d.year, toString d.month, toString d.day] ++ ")"

/-- A distance from universal time in a message. -/
def zoneText (seconds : Int) : String :=
  if seconds == 0 then "datetime.timezone.utc"
  else
    let days := if seconds < 0 then "days=-1, " else ""
    "datetime.timezone(datetime.timedelta(" ++ days ++ "seconds=" ++
      toString (seconds % 86400) ++ "))"

/-- A moment in a message: the smallest parts are left out while they are
zero. -/
def momentText (m : Moment) : String :=
  let small :=
    if m.microsecond != 0 then [m.second, m.microsecond]
    else if m.second != 0 then [m.second] else []
  let parts := ([m.date.year, m.date.month, m.date.day, m.hour, m.minute] ++ small).map toString
  let zone := match m.offset with
    | none => []
    | some s => ["tzinfo=" ++ zoneText s]
  "datetime.datetime(" ++ ", ".intercalate (parts ++ zone) ++ ")"

/-- The value as a message shows it. -/
def quotedText : Value → String
  | null => "None"
  | bool b => if b then "True" else "False"
  | number n => n.text
  | text s => Text.quoted s
  | bytes bs => bytesText bs
  | date d => dateText d
  | moment m => momentText m
  | list items => "[" ++ ", ".intercalate (quotedItems items) ++ "]"
  | pair first second => "(" ++ first.quotedText ++ ", " ++ second.quotedText ++ ")"
  | map entries => "\x7b" ++ ", ".intercalate (quotedEntries entries) ++ "\x7d"
  | set [] => "set()"
  | set items => "\x7b" ++ ", ".intercalate (quotedItems items) ++ "\x7d"
where
  /-- The items as a message shows them. -/
  quotedItems : List Value → List String
    | [] => []
    | v :: rest => v.quotedText :: quotedItems rest
  /-- The entries as a message shows them. -/
  quotedEntries : List (Value × Value) → List String
    | [] => []
    | (k, v) :: rest => (k.quotedText ++ ": " ++ v.quotedText) :: quotedEntries rest

/-- The value where a text is expected. -/
def plainText : Value → String
  | text s => s
  | date d => d.isoText
  | moment m => m.text " "
  | v => v.quotedText

/-- What comes of showing a value as a text. -/
def shownAs (v : Value) (text : String) : Except Failure String :=
  if callLimit < v.depth then .error (.fault .endless)
  else if v.hasLongNumber then .error (.fault .badValue)
  else .ok text

/-- The value as a message shows it, unless it cannot be shown. -/
def quoted (v : Value) : Except Failure String := v.shownAs v.quotedText

/-- The value where a text is expected, unless it cannot be shown. -/
def plain (v : Value) : Except Failure String := v.shownAs v.plainText

end Montage.Value
