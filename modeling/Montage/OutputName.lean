import Montage.Calendar
import Montage.Host.Basic

/-!
# Names of outputs

The name of an output nobody named: what was done to it, the moment, and the
extension of its format.
-/

namespace Montage.OutputName

/-- The short names of the months. -/
def months : List String :=
  ["jan", "feb", "mar", "apr", "may", "jun", "jul", "aug", "sep", "oct", "nov", "dec"]

/-- A number from 0 to 25 as a capital; larger numbers start again. -/
def capital (n : Nat) : String := (Char.ofNat (65 + n % 26)).toString

/-- The milliseconds of a second, from the seconds since the epoch. -/
def milliseconds (epoch : Number) : Except Fault Nat :=
  match epoch with
  | .int _ => .ok 0
  | .float x =>
    let scaled := x * 1000.0
    match Decimal.truncate? scaled with
    | some n => .ok (n % 1000).toNat
    | none => if scaled.isNaN then .error .badValue else .error .tooLarge

/-- The date as two digits of the year, the month and the day; then hour, minute
and second, of which hour and second are a letter; then the milliseconds. -/
def stamp (clock : LocalTime) (milliseconds : Nat) : String :=
  zeroPadded 2 (clock.year % 100) ++ months.getD (clock.month - 1) "" ++ zeroPadded 2 clock.day ++
    capital clock.hour ++ zeroPadded 2 clock.minute ++ capital clock.second ++
    zeroPadded 3 milliseconds

/-- The name of an output, without its directory. -/
def make (clock : LocalTime) (epoch : Number) (task extension : String) : Except Fault String := do
  let ms ← milliseconds epoch
  return task ++ "-" ++ stamp clock ms ++ "." ++ extension

end Montage.OutputName
