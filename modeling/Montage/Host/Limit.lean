import Montage.Number

/-!
# Time limits

How long a tool may run, in seconds.  A tool is waited for in two ways.  Where only
its end is of interest, the system is asked to wait for so many milliseconds, which
it does up to a point; what passes between the start and the question is left out of
account.  Where its report is read meanwhile, a timer runs beside it.
-/

namespace Montage.Limit

/-- The most milliseconds that the system can be asked to wait. -/
def mostMilliseconds : Float := 2147483647.0

/-- The most seconds after which a timer goes off. -/
def mostSeconds : Int := 9223372036

/-- Why the system cannot be asked to wait so long, if it cannot. -/
def fault? (limit : Number) : Option Fault :=
  match limit.toFloat? with
  | .error fault => some fault
  | .ok x =>
    if x.isNaN then some .badValue
    else if mostMilliseconds < x * 1000.0 then some .tooLarge
    else none

/-- Whether the limit is over as soon as it is set. -/
def isOver (limit : Number) : Bool := limit.le (.int 0)

/-- When a timer goes off. -/
inductive Alarm
  | atOnce
  | inTime
  /-- It is set to a time that is too far away, and fails on its own. -/
  | never
  deriving Repr, DecidableEq

/-- When a timer goes off that is set to a limit. -/
def alarm (limit : Number) : Alarm :=
  if !Number.lt (.int 0) limit then .atOnce
  else if Number.lt (.int mostSeconds) limit then .never
  else .inTime

end Montage.Limit
