import Montage.Media
import Montage.OutputName
import Montage.Plan.Join
import Montage.Resolver

/-!
# Compiling requests

A request becomes a plan.  Every operation checks its fields, finds the clips
they name, chooses the output and hands all of it to the planner.  A custom edit
may have to await the length of its clip.
-/

namespace Montage

/-- A compiler: the configuration and the directories in which it looks for
clips. -/
structure Compiler where
  config : Config
  directories : List String

namespace Compiler

/-- The compiler that looks in the directories of its configuration. -/
def ofConfig (config : Config) : Compiler := ⟨config, config.searchDirs⟩

/-- The slowest speed, which is itself too slow. -/
def speedFloor : Float := 0.1

/-- The fastest speed. -/
def speedCeiling : Float := 10.0

/-- The output a request asks for, or a new name in the output directory. -/
def target (c : Compiler) (request : Request) (task extension : String) : Action String := do
  let v := request.field ["output"]
  if v.isBlank then
    let host ← get
    match OutputName.make host.clock host.epoch task extension with
    | .ok name => return Path.join c.config.outputDir name
    | .error fault => throw (.fault fault)
  else v.plain

/-- Tell what is being done. -/
def tell (c : Compiler) (line : String) : Action Unit := Action.log c.config.quiet line

/-- Find the clip that a value names. -/
def find (c : Compiler) (v : Value) : Action Clip := do
  let host ← get
  Resolver.resolve host c.directories v

/-- The track that replaces the sound, if the field names one. -/
def replacement (c : Compiler) (request : Request) (name : String) (loop : Bool) :
    Action (Option Sound) := do
  let v := request.field [name]
  if v.isBlank then return none
  let clip ← c.find v
  let temporary ←
    Request.switch (request.field ["cleanupAudio", "cleanup_audio"]) "cleanupAudio" false
  return some (.replaced clip loop temporary)

/-- What becomes of the sound: a replacement counts more than muting. -/
def chooseSound (replacement : Option Sound) (mute : Bool) : Sound :=
  replacement.getD (if mute then .muted else .original)

/-- Convert a clip to another format. -/
def convert (c : Compiler) (request : Request) : Action (Plan Number) := do
  let name ← Request.requiredName request ["filename"]
  match ← Request.format? (request.field ["format"]) with
  | none => Request.refuse "format" .required
  | some format =>
    let clip ← c.find (.text name)
    let target ← c.target request "converted" format
    c.tell ("Starting conversion: " ++ name ++ " -> " ++ format)
    Plan.convert clip target format

/-- Change the speed of a clip. -/
def changeSpeed (c : Compiler) (request : Request) : Action (Plan Number) := do
  let name ← Request.requiredName request ["filename"]
  let v := request.field ["speed"]
  if v.isBlank then
    Request.refuse "speed"
      (.speedMissing (Decimal.briefText speedFloor) (Decimal.briefText speedCeiling))
  else
    let ratio ← Request.speed v "speed" (some speedFloor) (some speedCeiling)
    let clip ← c.find (.text name)
    let shown := Decimal.briefText ratio ++ "x"
    let target ← c.target request ("speed-" ++ shown) Request.usualFormat
    c.tell ("Changing speed: " ++ name ++ " -> " ++ shown)
    Plan.changeSpeed clip (.float ratio) target

/-- Take the sound away from a clip. -/
def mute (c : Compiler) (request : Request) : Action (Plan Number) := do
  let name ← Request.requiredName request ["filename"]
  let clip ← c.find (.text name)
  let target ← c.target request "muted" Request.usualFormat
  c.tell ("Muting video: " ++ name)
  Plan.mute clip target

/-- Give a clip another sound track. -/
def addAudio (c : Compiler) (request : Request) : Action (Plan Number) := do
  if (request.field ["audio"]).isBlank then Request.refuse "audio" .audioMissing
  else
    let name ← Request.requiredName request ["videoFilename", "video_filename"]
    let clip ← c.find (.text name)
    let sound ← c.replacement request "audio" false
    let target ← c.target request "custom-audio" Request.usualFormat
    c.tell ("Adding audio to: " ++ name)
    match sound with
    | some (.replaced track loop temporary) => Plan.replaceSound clip track loop temporary target
    | _ => throw (.fault .noSuchField)

/-- Read the settings of a custom edit. -/
def readEdit (request : Request) (replacement : Option Sound) : Except Failure (Edit Number) := do
  let resize ← Resize.read (request.field ["resolution"])
    (request.field ["resizeMode", "resize_mode"]) "resolution"
  let speed ← Request.speed (request.field ["speed"]) "speed" none none
  let mute ← Request.switch (request.field ["mute"]) "mute" false
  let fadeIn ← Request.number? (request.field ["fadeIn", "fade_in"]) "fadeIn"
  let fadeOut ← Request.number? (request.field ["fadeOut", "fade_out"]) "fadeOut"
  let videoFilters ←
    Request.filters (request.field ["videoFilters", "video_filters"]) "videoFilters"
  let audioFilters ←
    Request.filters (request.field ["audioFilters", "audio_filters"]) "audioFilters"
  let volume ← Request.number? (request.field ["volume"]) "volume"
  let format ← Request.format? (request.field ["format"])
  let videoCodec ← Request.codec? (request.field ["videoCodec", "video_codec"]) "videoCodec"
  let audioCodec ← Request.codec? (request.field ["audioCodec", "audio_codec"]) "audioCodec"
  return {
    resize, speed := .float speed, videoFilters, audioFilters
    volume := .float (volume.getD 1.0)
    fadeIn := .float (fadeIn.getD 0.0)
    fadeOut := .float (fadeOut.getD 0.0)
    sound := chooseSound replacement mute
    format, videoCodec, audioCodec }

/-- A truth value in a line of the log. -/
def truthText (b : Bool) : String := if b then "True" else "False"

/-- Edit a clip in any combination of ways. -/
def custom (c : Compiler) (request : Request) : Action (Draft Number) := do
  let name ← Request.requiredName request ["filename"]
  let clip ← c.find (.text name)
  let replacement ← c.replacement request "customAudio" true
  let edit ← readEdit request replacement
  let target ← c.target request "custom" (edit.format.getD Request.usualFormat)
  c.tell ("Starting custom command for: " ++ name ++
    " (Audio: " ++ truthText replacement.isSome ++ ")")
  return edit.plan clip target

/-- Join several clips. -/
def stitch (c : Compiler) (request : Request) : Action (Plan Number) := do
  let names ← Request.nameList (request.field ["videos"]) "videos"
  if names.length < 2 then Request.refuse "videos" .tooFewClips
  else
    let resize ← Resize.read (request.field ["resolution"])
      (request.field ["resizeMode", "resize_mode"]) "resolution"
    let mute ← Request.switch (request.field ["mute"]) "mute" false
    let format ← Request.format? (request.field ["format"])
    let host ← get
    let clips ← Resolver.resolveAll host c.directories (names.map .text)
    let replacement ← c.replacement request "customAudio" true
    let target ← c.target request "stitched" (format.getD Request.usualFormat)
    c.tell ("Starting stitch for: " ++ ", ".intercalate names ++ " (Mute: " ++ truthText mute ++
      ", Custom Audio: " ++ truthText replacement.isSome ++ ")")
    Plan.join clips resize (chooseSound replacement mute) target format

/-- The description of a clip's container. -/
def info (c : Compiler) (request : Request) : Action Request := do
  let name ← Request.requiredName request ["filename"]
  let clip ← c.find (.text name)
  Media.format c.config clip

/-- The operations that make a plan. -/
inductive Operation
  | convert
  | speed
  | mute
  | addAudio
  | custom
  | stitch
  deriving Repr, DecidableEq

namespace Operation

/-- The names of the operations, in order; one operation has two spellings. -/
def table : List (String × Operation) :=
  [("add-audio", addAudio), ("add_audio", addAudio), ("convert", convert), ("custom", custom),
    ("mute", mute), ("speed", speed), ("stitch", stitch)]

/-- The operation that a value names. -/
def ofValue (v : Value) : Except Failure Operation := do
  if !v.isKey then throw (.fault .wrongType)
  match v.text?.bind fun name => table.lookup name with
  | some operation => return operation
  | none =>
    Request.refuse "operation"
      (.unknownOperation (", ".intercalate (table.map Prod.fst)) (← v.quoted))

end Operation

/-- A plan that awaits nothing. -/
def settled (plan : Action (Plan Number)) : Action (Draft Number) := do
  return .settled (.ok (← plan))

/-- Carry out one operation. -/
def perform (c : Compiler) (request : Request) : Operation → Action (Draft Number)
  | .convert => settled (c.convert request)
  | .speed => settled (c.changeSpeed request)
  | .mute => settled (c.mute request)
  | .addAudio => settled (c.addAudio request)
  | .custom => c.custom request
  | .stitch => settled (c.stitch request)

/-- The plan of a request, or the question that stands before it. -/
def draft (c : Compiler) (request : Request) : Action (Draft Number) := do
  let operation ← Operation.ofValue (request.field ["operation"])
  c.perform request operation

/-- Answer the question of a draft, if it has one. -/
def answer (probe : Clip → Action (Option Number)) : Draft Number → Action (Plan Number)
  | .settled outcome => outcome
  | .awaiting clip resume => do
    let length ← probe clip
    let length ← usableLength clip length
    resume length

/-- The plan of a request, with a way to learn the length of a clip. -/
def compile (c : Compiler) (request : Request) (probe : Clip → Action (Option Number)) :
    Action (Plan Number) := do
  let draft ← c.draft request
  answer probe draft

/-- Learn the length of a clip from the probing tool. -/
def ask (config : Config) (clip : Clip) : Action (Option Number) := do
  return some (.float (← Media.duration config clip))

end Compiler

end Montage
