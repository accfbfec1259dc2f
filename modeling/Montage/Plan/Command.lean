import Montage.Plan.Basic

/-!
# Argument vectors

The argument vector that makes the render engine carry out a plan.
-/

namespace Montage

variable {α : Type} [Arithmetic α]

/-- The arguments that make the engine report its progress on standard
output. -/
def progressArguments : List String :=
  ["-loglevel", "error", "-nostats", "-progress", "pipe:1"]

/-- The arguments of an input.  No plan asks for more repetitions than can be
written. -/
def Input.arguments (input : Input) : List String :=
  (match input.loop with
    | none => []
    | some n => ["-stream_loop", toString n]) ++ ["-i", input.clip.path]

/-- The engine's name for a container format. -/
def muxerName (format : String) : String :=
  if format == "mkv" then "matroska" else format

/-- An option with a value, if there is one. -/
def optionArguments (flag : String) : Option String → List String
  | none => []
  | some value => [flag, value]

/-- The arguments of the output options. -/
def OutputOptions.arguments (options : OutputOptions α) : List String :=
  (if options.noAudio then ["-an"] else []) ++
    optionArguments "-c:v" options.videoCodec ++
    optionArguments "-c:a" options.audioCodec ++
    optionArguments "-t" (options.duration.map Arithmetic.text) ++
    (if options.shortest then ["-shortest"] else []) ++
    optionArguments "-f" (options.format.map muxerName)

/-- The argument vector of a plan. -/
def Plan.command (plan : Plan α) (program : String) (progress : Bool) : List String :=
  [program, "-y", "-hide_banner"] ++
    (if progress then progressArguments else []) ++
    plan.inputs.flatMap Input.arguments ++
    optionArguments "-filter_complex" (plan.graph.map Graph.render) ++
    plan.maps.flatMap (fun m => ["-map", m.render]) ++
    plan.options.arguments ++
    [plan.target]

end Montage
