import Montage.Config
import Montage.Host.Action
import Montage.Plan.Command
import Montage.Text.ShellWord

/-!
# Rendering

Running the engine on a plan.  Unless silence is asked for, the engine reports
its progress, and a bar shows how much of the output is done.  Temporary inputs
are removed when the run is over, whatever came of it.
-/

namespace Montage

namespace Progress

/-- The position in the output that a line of the progress report gives, in
seconds. -/
def seconds (line : String) : Except Fault (Option Number) :=
  let cs := Text.trim line.toList
  let key := String.ofList (cs.takeWhile (· != '='))
  if key == "out_time_us" || key == "out_time_ms" then
    match Decimal.readInteger 10 ((cs.dropWhile (· != '=')).drop 1) with
    | .error _ => .ok none
    | .ok n =>
      match (Number.int n).toFloat? with
      | .ok x => .ok (some (.float (x / 1000000.0)))
      | .error fault => .error fault
  else .ok none

variable {α : Type} [Arithmetic α]

/-- The smaller of a position and the end, if the end is known. -/
def capped (total : Option α) (seconds : α) : α :=
  match total with
  | none => seconds
  | some total => if Arithmetic.lt total seconds then total else seconds

/-- The step of a bar at `position` that has reached a number of seconds. -/
def step (total : Option α) (position seconds : α) : α :=
  Arithmetic.clampBelow (Arithmetic.sub (capped total seconds) position)

/-- The steps a bar makes for the positions it is told, from where it stands. -/
def steps (total : Option α) (position : α) : List α → List α
  | [] => []
  | seconds :: rest =>
    let step := step total position seconds
    step :: steps total (Arithmetic.add position step) rest

/-- The positions that the lines of a report give, up to a line that cannot be
read. -/
def positions : List String → List Number × Option Fault
  | [] => ([], none)
  | line :: rest =>
    match seconds line with
    | .error fault => ([], some fault)
    | .ok position =>
      let (more, fault) := positions rest
      (position.toList ++ more, fault)

end Progress

namespace Render

/-- The number of characters of the engine's complaints that a message ends
with. -/
def tailLength : Nat := 2000

/-- The end of the engine's complaints. -/
def tail (stderr : String) : String :=
  let cs := Text.trim stderr.toList
  String.ofList (cs.drop (cs.length - tailLength))

/-- The failure of a run that took too long.  A limit of too many digits cannot be
named in its message. -/
def timedOut (limit : Option Number) : Failure :=
  if limit.any Number.isTooLong then .fault .badValue
  else .engine (.timedOut (limitText limit)) none ""

/-- The failure of a run that did not start. -/
def notStarted (reason : Refusal) : Failure :=
  .engine (.notStarted reason.message) none ""

/-- Run the engine in silence. -/
def runQuiet (command : List String) (limit : Option Number) : Action (Int × String) := do
  match ← Action.runTool .engine command limit with
  | .refused reason => throw (notStarted reason)
  | .timedOut => throw (timedOut limit)
  | .ended code _ stderr => return (code, stderr)

/-- What comes of reading the report of an engine that was started, while a timer is
set if there is a time limit: the positions that are shown, and how the run ends.  An
engine that is stopped at once tells nothing. -/
def watch (engine : Behaviour) (limit : Option Number) :
    List Number × Except Failure (Int × String) :=
  match limit.map Limit.alarm with
  | some .atOnce => ([], .error (timedOut limit))
  | alarm =>
    let (positions, fault) := Progress.positions engine.lines
    let ending : Except Failure (Int × String) :=
      match fault with
      | some fault => .error (.fault fault)
      | none =>
        if engine.garbledOut then .error (.fault .badValue)
        else if engine.hangs && alarm == some .inTime then .error (timedOut limit)
        else if engine.hangs && alarm == some .never then .error (.fault .endless)
        else if engine.garbledErr then .error (.fault .badValue)
        else .ok (engine.code, engine.stderr)
    (positions, ending)

/-- Run the engine while a bar shows its progress. -/
def runShown (command : List String) (total : Option Number) (limit : Option Number) :
    Action (Int × String) := do
  if !Action.isSendable command then throw (.fault .badValue)
  Action.record (.stream .engine command)
  let host ← get
  match host.engine.refusal with
  | some reason => throw (notStarted reason)
  | none =>
    Action.setFiles (host.afterStart host.engine)
    match limit with
    | some seconds => Action.record (.timer seconds)
    | none => pure ()
    let (positions, ending) := watch host.engine limit
    let bar : Bar := ⟨total, Progress.steps total (.int 0) positions⟩
    modify fun host => { host with bars := host.bars ++ [bar] }
    ending

/-- The length of the output, as far as the plan knows it. -/
def expectedLength (plan : Plan Number) : Option Number :=
  match plan.options.duration with
  | some d => if d.eq (.int 0) then plan.estimate else some d
  | none => plan.estimate

/-- Make the directory of the output, unless it is there. -/
def makeOutputDir (path : String) : Action Unit := do
  let directory := Path.parent path
  let host ← get
  if directory.isEmpty || host.isDirectory directory then return
  let (files, outcome) := host.files.makePath host.place directory
  Action.setFiles files
  outcome

/-- Remove those of the paths that lead to a file, up to one that the system does not
let go. -/
def removeFiles : List String → Action Unit
  | [] => return
  | path :: rest => do
    let host ← get
    if host.isFile path then
      if host.holds path then throw .system
      Action.setFiles (host.files.unlink host.place path)
    removeFiles rest

/-- Run the engine and see whether it wrote the output. -/
def produce (plan : Plan Number) (config : Config) (shown : Bool) (command : List String) :
    Action Unit := do
  makeOutputDir plan.target
  let (code, stderr) ←
    if shown then runShown command (expectedLength plan) config.timeout
    else runQuiet command config.timeout
  if code != 0 then throw (.engine (.exited code (tail stderr)) (some code) stderr)
  let host ← get
  if !host.isFile plan.target then throw (.engine (.noOutput plan.target) none "")

/-- The whole seconds between two readings of the clock. -/
def elapsed (start stop : Number) : Except Fault Int :=
  match start, stop with
  | .int m, .int n => .ok (n - m)
  | _, _ => do
    let x := (← stop.toFloat?) - (← start.toFloat?)
    match Decimal.truncate? x with
    | some n => return n
    | none => if x.isNaN then throw .badValue else throw .tooLarge

/-- Render a plan; the path of the output. -/
def render (plan : Plan Number) (config : Config) : Action String := do
  let start ← Action.readTime
  let host ← get
  let quiet := config.quiet || host.isQuiet
  let command := plan.command config.engine (!quiet)
  Action.log quiet ("CMD: '" ++ Text.shellLine command ++ "'")
  Action.ensuring (produce plan config (!quiet) command) (removeFiles plan.temporaryPaths)
  let stop ← Action.readTime
  match elapsed start stop with
  | .error fault => throw (.fault fault)
  | .ok seconds =>
    Action.log quiet ("Complete in " ++ toString seconds ++ " seconds")
    return plan.target

end Render

end Montage
