import Montage.Graph.Basic

/-!
# Plans

A plan is everything the render engine is told: the inputs, the filter graph,
which streams go into the output, and the options of the output.
-/

namespace Montage

/-- A clip: the name by which it was asked for, and its file. -/
structure Clip where
  name : String
  path : String
  deriving Repr, DecidableEq

/-- An input of the engine. -/
structure Input where
  clip : Clip
  /-- How often the input is repeated; minus one repeats it without end. -/
  loop : Option Int := none
  /-- The file is removed once the render is over. -/
  temporary : Bool := false
  deriving Repr, DecidableEq

/-- The choice of one stream for the output: a result of the graph by its label,
or a stream of an input by number, kind and position. -/
structure StreamMap where
  label : Option String := none
  input : Option Int := none
  stream : Option String := none
  position : Option Int := none
  /-- A stream that is not there is left out without complaint. -/
  optional : Bool := false
  deriving Repr, DecidableEq

/-- The options of the output, with durations in the number system `α`. -/
structure OutputOptions (α : Type) where
  format : Option String := none
  videoCodec : Option String := none
  audioCodec : Option String := none
  duration : Option α := none
  /-- The output ends with its shortest stream. -/
  shortest : Bool := false
  /-- The output has no sound. -/
  noAudio : Bool := false

/-- A plan in the number system `α`. -/
structure Plan (α : Type) where
  inputs : List Input
  graph : Option (Graph α)
  maps : List StreamMap
  options : OutputOptions α
  target : String
  /-- The expected length of the output, if it is known. -/
  estimate : Option α := none

namespace StreamMap

/-- The map of a graph result. -/
def ofLabel (label : String) : StreamMap := { label := some label }

/-- The map of an input's stream. -/
def ofStream (input : Nat) (stream : Stream) (position : Option Int) (optional : Bool) :
    StreamMap :=
  { input := some (input : Int), stream := some stream.letter.toString, position, optional }

/-- An optional number, or the word for its absence. -/
def numberText : Option Int → String
  | none => "None"
  | some n => toString n

/-- An optional text between quotes, or the word for its absence. -/
def quotedText : Option String → String
  | none => "None"
  | some s => Text.quoted s

/-- The map as the engine reads it. -/
def render (m : StreamMap) : String :=
  match m.label with
  | some label => "[" ++ label ++ "]"
  | none =>
    numberText m.input ++ ":" ++ m.stream.getD "None" ++
      (match m.position with | none => "" | some n => ":" ++ toString n) ++
      (if m.optional then "?" else "")

/-- The map with all its parts, for a message. -/
def shown (m : StreamMap) : String :=
  "StreamMap(label=" ++ quotedText m.label ++ ", input_index=" ++ numberText m.input ++
    ", stream_type=" ++ quotedText m.stream ++ ", stream_index=" ++ numberText m.position ++
    ", optional=" ++ (if m.optional then "True" else "False") ++ ")"

end StreamMap

namespace Plan

variable {α : Type}

/-- The files that are removed once the render is over. -/
def temporaryPaths (plan : Plan α) : List String :=
  (plan.inputs.filter (·.temporary)).map (·.clip.path)

/-- An optional text as a value. -/
def optionalText : Option String → Value
  | none => .null
  | some s => .text s

/-- The plan as a value, for printing. -/
def toValue (plan : Plan Number) : Value :=
  let entries (fields : List (String × Value)) : Value :=
    .map (fields.map fun (key, value) => (.text key, value))
  let optionalInt : Option Int → Value
    | none => .null
    | some n => .number (.int n)
  entries [
    ("inputs", .list (plan.inputs.map fun input => entries [
      ("path", .text input.clip.path),
      ("loop", optionalInt input.loop),
      ("temporary", .bool input.temporary)])),
    ("filter_graph", match plan.graph with
      | none => .null
      | some graph => .text graph.render),
    ("maps", .list (plan.maps.map fun m => .text m.render)),
    ("output", entries [
      ("target", .text plan.target),
      ("format", optionalText plan.options.format),
      ("video_codec", optionalText plan.options.videoCodec),
      ("audio_codec", optionalText plan.options.audioCodec),
      ("duration", match plan.options.duration with
        | none => .null
        | some n => .number n),
      ("shortest", .bool plan.options.shortest),
      ("no_audio", .bool plan.options.noAudio)])]

end Plan

end Montage
