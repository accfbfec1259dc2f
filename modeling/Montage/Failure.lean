import Montage.Text.Quoted

/-!
# Failures

Every way in which a request, a configuration or a run can fail, by its cause,
and the words that tell the user about it.
-/

namespace Montage

/-- A mistake that no part of the program expects: it ends the run without a
message of its own. -/
inductive Fault
  | wrongType
  | badValue
  | tooLarge
  | noSuchKey
  | noSuchField
  | outOfRange
  /-- The computation has no end, or goes deeper than the runtime follows. -/
  | endless
  deriving Repr, DecidableEq

/-- How deep the runtime follows calls that call themselves: a thousand levels in
all, less a few that are in use already. -/
def callLimit : Nat := 980

/-- Why a field of a request is refused. -/
inductive FieldCause
  | required
  | notNumber
  | notNumberBut (got : String)
  | notFinite (got : String)
  | speedNotNumber (got : String)
  | speedNotPositive
  | speedOutside (low high : String)
  | speedMissing (low high : String)
  | volumeNotPositive
  | fadeNegative
  | notBoolean (got : String)
  | filterNotText
  | notFilterList
  | namesUnreadable
  | notNameList
  | nameBlank
  | notFileName
  | tooFewClips
  | audioMissing
  | unknownFormat (choices got : String)
  | badCodec (got : String)
  | badDimension (got : String)
  | dimensionNotPositive (got : String)
  | notResolution (got : String)
  | unknownAudio (got : String)
  | unknownOperation (choices got : String)
  | notMapping
  deriving Repr, DecidableEq

/-- Why a file name leads to no clip. -/
inductive NameCause
  | blank
  | notFound
  | escapes (directory : String)
  deriving Repr, DecidableEq

/-- Why the length or format of a clip is unknown. -/
inductive ProbeCause
  | unavailable
  | unusable (got : String)
  | reported (text : String)
  | exited (code : Int)
  | unreadable (detail : String)
  | notMapping
  | noFormat
  | noDuration (got : String)
  | badDuration (got : String)
  deriving Repr, DecidableEq

/-- Why chains, maps and inputs do not make a plan. -/
inductive PlanCause
  | emptyChain
  | notProduced (label : String)
  | consumedTwice (label : String)
  | duplicate (label : String)
  | emptyGraph
  | notTerminal (label : String)
  | dangling (labels : List String)
  | noInputs
  | noTarget
  | readsMissingInput (label : String) (inputs : Nat)
  | notGraphOutput (label : String)
  | malformedMap (shown : String)
  | mapsMissingInput (shown : String)
  | neverMapped (labels : List String)
  | durationNotPositive (got : String)
  deriving Repr, DecidableEq

/-- Why a render failed. -/
inductive EngineCause
  | timedOut (seconds : String)
  | notStarted (reason : String)
  | exited (code : Int) (tail : String)
  | noOutput (path : String)
  deriving Repr, DecidableEq

/-- Why a configuration or a request file cannot be used. -/
inductive SetupCause
  | configTooLarge
  | requestTooLarge
  | configNotMapping
  | unknownKeys (keys : List String)
  | binaryNotFound (name path : String)
  | badTimeout (got : String)
  | timeoutNotPositive
  deriving Repr, DecidableEq

/-- A failure with all that is known about it. -/
inductive Failure
  | field (name : Option String) (cause : FieldCause)
  | resolution (file : String) (cause : NameCause)
  | probe (path : String) (cause : ProbeCause)
  | plan (cause : PlanCause)
  | engine (cause : EngineCause) (code : Option Int) (stderr : String)
  | setup (cause : SetupCause)
  | yaml
  | system
  | fault (fault : Fault)
  deriving Repr, DecidableEq

/-- The words for a refused field. -/
def FieldCause.message : FieldCause → String
  | required => "is required"
  | notNumber => "must be a number"
  | notNumberBut got => "must be a number, got " ++ got
  | notFinite got => "must be a finite number, got " ++ got
  | speedNotNumber got => "speed must be a number, got " ++ got
  | speedNotPositive => "speed must be positive"
  | speedOutside low high => "speed must be between " ++ low ++ " and " ++ high
  | speedMissing low high => "Speed must be between " ++ low ++ " and " ++ high
  | volumeNotPositive => "volume must be positive"
  | fadeNegative => "fade durations cannot be negative"
  | notBoolean got => "must be true or false, got " ++ got
  | filterNotText => "filters must be strings"
  | notFilterList => "must be a string or a list of strings"
  | namesUnreadable => "Invalid videos data"
  | notNameList => "must be a list of file names"
  | nameBlank => "file names must be non-empty strings"
  | notFileName => "must be a file name"
  | tooFewClips => "Please select at least 2 videos to stitch."
  | audioMissing => "No audio file uploaded"
  | unknownFormat choices got => "must be one of " ++ choices ++ ", got " ++ got
  | badCodec got => "invalid codec name " ++ got
  | badDimension got => "invalid dimension " ++ got
  | dimensionNotPositive got => "dimensions must be positive, got " ++ got
  | notResolution got => "expected 'W:H', got " ++ got
  | unknownAudio got => "unknown audio policy " ++ got
  | unknownOperation choices got => "unknown operation " ++ got ++ ", expected one of " ++ choices
  | notMapping => "request yaml must be a mapping at the top level"

/-- The words for a file name that leads nowhere. -/
def NameCause.message (file : String) : NameCause → String
  | blank => "a file name is required"
  | notFound => "File not found: " ++ file
  | escapes directory => "File name escapes " ++ directory ++ ": " ++ file

/-- The words for a failed probe. -/
def ProbeCause.message : ProbeCause → String
  | unavailable => "no probe available to read the duration"
  | unusable got => "unusable duration " ++ got
  | reported text => text
  | exited code => "ffprobe exited with " ++ toString code
  | unreadable detail => "unreadable ffprobe output: " ++ detail
  | notMapping => "unreadable ffprobe output"
  | noFormat => "no format section in ffprobe output"
  | noDuration got => "no container duration (" ++ got ++ ")"
  | badDuration got => "container duration is " ++ got

/-- The words for parts that make no plan. -/
def PlanCause.message : PlanCause → String
  | emptyChain => "filter chain needs at least one filter"
  | notProduced label => "filter input [" ++ label ++ "] is not produced earlier"
  | consumedTwice label => "filter label [" ++ label ++ "] is consumed twice"
  | duplicate label => "duplicate filter label [" ++ label ++ "]"
  | emptyGraph => "cannot build an empty filter graph"
  | notTerminal label => "terminal label [" ++ label ++ "] is not a graph output"
  | dangling labels => "unmapped filter outputs: " ++ ", ".intercalate labels
  | noInputs => "an execution plan needs at least one input"
  | noTarget => "an execution plan needs an output target"
  | readsMissingInput label inputs =>
    "filter graph reads [" ++ label ++ "] but only " ++ toString inputs ++ " inputs exist"
  | notGraphOutput label => "map [" ++ label ++ "] is not a graph output"
  | malformedMap shown => "malformed stream map " ++ shown
  | mapsMissingInput shown => "map " ++ shown ++ " references a missing input"
  | neverMapped labels => "filter graph outputs are never mapped: " ++ ", ".intercalate labels
  | durationNotPositive got => "output duration must be positive, got " ++ got

/-- The words for a failed render. -/
def EngineCause.message : EngineCause → String
  | timedOut seconds => "ffmpeg timed out after " ++ seconds ++ " seconds"
  | notStarted reason => "could not start ffmpeg: " ++ reason
  | exited code tail => "ffmpeg failed with exit code " ++ toString code ++ ": " ++ tail
  | noOutput path => "ffmpeg finished but wrote no file: " ++ path

/-- The words for an unusable configuration or request file. -/
def SetupCause.message : SetupCause → String
  | configTooLarge => "config file is larger than 1MB"
  | requestTooLarge => "request file is larger than 1MB"
  | configNotMapping => "config yaml must be a mapping at the top level"
  | unknownKeys keys => "unknown config keys: " ++ ", ".intercalate keys
  | binaryNotFound name path => name ++ " binary not found: " ++ path
  | badTimeout got => "timeout must be a number of seconds, got " ++ got
  | timeoutNotPositive => "timeout must be positive"

/-- The whole message of a failure; unexpected faults have none. -/
def Failure.message : Failure → String
  | field none cause => cause.message
  | field (some name) cause => name ++ ": " ++ cause.message
  | resolution file cause => cause.message file
  | probe path cause => "probe failed for " ++ path ++ ": " ++ cause.message
  | plan cause => cause.message
  | engine cause _ _ => cause.message
  | setup cause => cause.message
  | yaml | system | fault _ => ""

/-- The failures that stop a request before any plan exists. -/
def Failure.isCompilation : Failure → Bool
  | field _ _ | resolution _ _ | probe _ _ | plan _ => true
  | _ => false

/-- The failures of the render engine. -/
def Failure.isEngine : Failure → Bool
  | engine _ _ _ => true
  | _ => false

end Montage
