import Montage.Host.Basic
import Montage.Host.Limit

/-!
# Actions

The steps of which a run is made: printing, reading the clock, starting a tool,
and clearing up whatever happens.
-/

namespace Montage.Action

/-- What an action comes to on a host, and the host after it. -/
def runOn {α : Type} (action : Action α) (host : Host) : Except Failure α × Host :=
  ExceptT.run action host

/-- Print a line. -/
def print (line : String) : Action Unit :=
  modify fun host => { host with printed := host.printed ++ line ++ "\n" }

/-- Write a line of complaint. -/
def complain (line : String) : Action Unit :=
  modify fun host => { host with complaints := host.complaints ++ line ++ "\n" }

/-- Print a line unless silence is asked for. -/
def log (quiet : Bool) (line : String) : Action Unit := do
  let host ← get
  if quiet || host.isQuiet then return
  print line

/-- Take the next reading of the timing clock. -/
def readTime : Action Number := do
  let host ← get
  match host.times with
  | [] => return .int 0
  | [time] => return time
  | time :: rest =>
    set { host with times := rest }
    return time

/-- Note what was set going. -/
def record (event : Event) : Action Unit :=
  modify fun host => { host with events := host.events ++ [event] }

/-- Change the files. -/
def setFiles (files : FileTree) : Action Unit :=
  modify fun host => { host with files }

/-- Whether the system takes all words of a command. -/
def isSendable (command : List String) : Bool :=
  command.all fun word => Text.isSendable word.toList

/-- How a program that was waited for came out. -/
inductive Outcome
  | refused (reason : Refusal)
  | timedOut
  | ended (code : Int) (stdout stderr : String)

/-- Whether the time limit, if there is one, stops a program that is waited for. -/
def stops (behaviour : Behaviour) : Option Number → Except Failure Bool
  | none => .ok false
  | some limit =>
    match Limit.fault? limit with
    | some fault => .error (.fault fault)
    | none => .ok (Limit.isOver limit || behaviour.hangs)

/-- How a program that was started comes out when it is waited for.  If it is stopped,
nobody looks at what it wrote. -/
def awaitEnd (behaviour : Behaviour) (limit : Option Number) : Except Failure Outcome := do
  if ← stops behaviour limit then return .timedOut
  if behaviour.garbledOut || behaviour.garbledErr then throw (.fault .badValue)
  return .ended behaviour.code behaviour.stdout behaviour.stderr

/-- Run a tool to its end, within a time limit if there is one. -/
def runTool (tool : Tool) (command : List String) (limit : Option Number) : Action Outcome := do
  if !isSendable command then throw (.fault .badValue)
  record (.run tool command limit)
  let host ← get
  let behaviour := host.behaviour tool
  match behaviour.refusal with
  | some reason => return .refused reason
  | none =>
    setFiles (host.afterStart behaviour)
    awaitEnd behaviour limit

/-- Perform an action, and after it a second one whatever became of the
first. -/
def ensuring {α : Type} (action : Action α) (last : Action Unit) : Action α :=
  ExceptT.mk fun host =>
    match action.runOn host with
    | (outcome, host) =>
      match last.runOn host with
      | (.ok (), host) => (outcome, host)
      | (.error failure, host) => (.error failure, host)

end Montage.Action
