import Montage.Config
import Montage.Host.Action
import Montage.Json.Reader
import Montage.Plan.Edit
import Montage.Request.Fields

/-!
# Media reports

What the probing tool tells about a clip.  It prints a JSON document; the
section `format` describes the container, and its entry `duration` gives the
length in seconds, as a number or as the text of one.
-/

namespace Montage.Media

/-- The arguments that make the tool report on a clip. -/
def command (config : Config) (clip : Clip) : List String :=
  [config.prober, "-v", "error", "-show_format", "-show_streams", "-of", "json", clip.path]

/-- The words for a tool that was stopped. -/
def timeoutText (command : List String) (limit : Option Number) : String :=
  "Command '[" ++ ", ".intercalate (command.map Text.quoted) ++ "]' timed out after " ++
    limitText limit ++ " seconds"

/-- Read the report of a tool that ended. -/
def readReport (clip : Clip) (code : Int) (stdout stderr : String) : Except Failure Request := do
  if code != 0 then
    let words := Text.strip stderr
    if words.isEmpty then throw (.probe clip.path (.exited code))
    else throw (.probe clip.path (.reported words))
  match Json.read stdout with
  | .error ⟨.tooDeep, _⟩ => throw (.fault .endless)
  | .error e => throw (.probe clip.path (.unreadable (e.message stdout)))
  | .ok (.map entries) => return entries
  | .ok _ => throw (.probe clip.path .notMapping)

/-- Ask the tool about a clip. -/
def report (config : Config) (clip : Clip) : Action Request := do
  let command := command config clip
  match ← Action.runTool .prober command config.timeout with
  | .refused reason => throw (.probe clip.path (.reported reason.message))
  | .timedOut => throw (.probe clip.path (.reported (timeoutText command config.timeout)))
  | .ended code stdout stderr => readReport clip code stdout stderr

/-- The description of the container in a report. -/
def formatOf (clip : Clip) (report : Request) : Except Failure Request :=
  match report.field ["format"] with
  | .map entries => .ok entries
  | _ => .error (.probe clip.path .noFormat)

/-- The length of the clip in a description of its container. -/
def durationOf (clip : Clip) (format : Request) : Except Failure Float := do
  let v := format.field ["duration"]
  match ← v.toFloat? with
  | none => throw (.probe clip.path (.noDuration (← v.quoted)))
  | some x =>
    if x ≤ 0.0 then throw (.probe clip.path (.badDuration (Decimal.fullText x)))
    else return x

/-- The description of a clip's container. -/
def format (config : Config) (clip : Clip) : Action Request := do
  let entries ← report config clip
  formatOf clip entries

/-- The length of a clip in seconds. -/
def duration (config : Config) (clip : Clip) : Action Float := do
  let entries ← format config clip
  durationOf clip entries

end Montage.Media
