/-!
# Dates and moments

Calendar dates and times of day as they occur in a YAML document, with their
range checks and texts.
-/

namespace Montage

/-- A calendar date. -/
structure Date where
  year : Nat
  month : Nat
  day : Nat
  deriving Repr, DecidableEq

/-- A time on a date, with the distance from universal time in seconds if it is
known. -/
structure Moment where
  date : Date
  hour : Nat
  minute : Nat
  second : Nat
  microsecond : Nat
  offset : Option Int
  deriving Repr, DecidableEq

/-- A number with leading zeros. -/
def zeroPadded (width n : Nat) : String :=
  let digits := Nat.toDigits 10 n
  String.ofList (List.replicate (width - digits.length) '0' ++ digits)

namespace Date

/-- Whether February has a day more. -/
def isLeap (year : Nat) : Bool :=
  year % 4 == 0 && (year % 100 != 0 || year % 400 == 0)

/-- The number of days of a month. -/
def daysIn (year month : Nat) : Nat :=
  if month == 2 then (if isLeap year then 29 else 28)
  else if month == 4 || month == 6 || month == 9 || month == 11 then 30
  else 31

/-- The date, if the calendar has it. -/
def ofParts? (year month day : Nat) : Option Date :=
  if 1 ≤ year && year ≤ 9999 && 1 ≤ month && month ≤ 12 && 1 ≤ day && day ≤ daysIn year month then
    some ⟨year, month, day⟩
  else none

/-- The date as year, month and day. -/
def isoText (d : Date) : String :=
  zeroPadded 4 d.year ++ "-" ++ zeroPadded 2 d.month ++ "-" ++ zeroPadded 2 d.day

end Date

namespace Moment

/-- The moment, if the clock has it and it is less than a day from universal
time. -/
def ofParts? (date : Date) (hour minute second microsecond : Nat) (offset : Option Int) :
    Option Moment :=
  let near := match offset with
    | none => true
    | some s => -86400 < s && s < 86400
  if hour < 24 && minute < 60 && second < 60 && microsecond < 1000000 && near then
    some ⟨date, hour, minute, second, microsecond, offset⟩
  else none

/-- A distance from universal time in hours and minutes. -/
def offsetText (seconds : Int) : String :=
  let minutes := seconds.natAbs / 60
  (if seconds < 0 then "-" else "+") ++ zeroPadded 2 (minutes / 60) ++ ":" ++
    zeroPadded 2 (minutes % 60)

/-- The moment as a date, a separator and a time. -/
def text (separator : String) (m : Moment) : String :=
  m.date.isoText ++ separator ++ zeroPadded 2 m.hour ++ ":" ++ zeroPadded 2 m.minute ++ ":" ++
    zeroPadded 2 m.second ++
    (if m.microsecond == 0 then "" else "." ++ zeroPadded 6 m.microsecond) ++
    (match m.offset with | none => "" | some s => offsetText s)

/-- The moment with the letter T between date and time. -/
def isoText (m : Moment) : String := m.text "T"

end Moment

end Montage
