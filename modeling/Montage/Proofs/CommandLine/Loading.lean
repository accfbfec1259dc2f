import Montage.CommandLine.Run
import Montage.Proofs.Host.Action
import Montage.Proofs.Request.Refusals

/-!
# Loading

Before anything is done for a request, the configuration and the request are loaded.  Loading
looks at the files and the environment only (`loaded`), and what it fails with is a fault, a
failure of the system, or a refusal in its own words: never a failure of the engine
(`Config.failsEarly_load`, `Request.failsEarly_load`).
-/

namespace Montage

theorem Yaml.failsEarly_readFile (host : Host) (path : String) (tooLarge : SetupCause) :
    FailsEarly (readFile host path tooLarge) := by
  have hread (text : List Char) : FailsEarly ((read text).mapError Error.toFailure) := by
    cases read text with
    | ok v => exact .ok v
    | error e => cases e <;> exact .error rfl
  unfold readFile
  simp only
  refine .guard rfl ?_
  split
  · exact .error rfl
  · refine .guard rfl ?_
    split
    · exact .error rfl
    · exact hread _

namespace Config

theorem failsEarly_readSettings (host : Host) (path : Option String) :
    FailsEarly (readSettings host path) := by
  cases path with
  | none => exact .ok []
  | some path =>
      refine (Yaml.failsEarly_readFile host path _).bind fun v => ?_
      unfold settingsOf
      split
      · exact .ok _
      · exact .ok _
      · exact .error rfl

theorem failsEarly_checkKeys (settings : Settings) : FailsEarly (checkKeys settings) :=
  .ite (.ok ()) (.ite (.error rfl) (.error rfl))

theorem failsEarly_directory (settings : Settings) (key default : String) :
    FailsEarly (directory settings key default) := by
  unfold directory
  split
  · exact .ok _
  · exact Value.failsEarly_plain _

theorem failsEarly_tool (host : Host) (name : String) (v : Value) :
    FailsEarly (tool host name v) := by
  unfold tool
  split
  · exact .ok _
  · refine (Value.failsEarly_plain _).bind fun shown => .guard rfl (.ite (.ok _) ?_)
    split
    · exact .ok _
    · exact .error rfl

theorem failsEarly_limit (v : Value) : FailsEarly (limit v) := by
  unfold limit
  split
  · exact .ok _
  · exact .ok _
  · refine (Value.failsEarly_toFloat? _).bind fun seconds => ?_
    cases seconds with
    | none => exact (Value.failsEarly_quoted _).bind fun _ => .error rfl
    | some seconds => exact .guard rfl (.ok _)

theorem failsEarly_silence (v : Value) : FailsEarly (silence v) := by
  unfold silence
  split
  · exact .ok _
  · exact .ok _
  · exact (Value.failsEarly_plain _).bind fun _ => .ok _

theorem failsEarly_load (host : Host) (path : Option String) : FailsEarly (load host path) := by
  refine (failsEarly_readSettings host path).bind fun settings => ?_
  exact (failsEarly_checkKeys _).bind fun _ => (failsEarly_directory _ _ _).bind fun _ =>
    (failsEarly_directory _ _ _).bind fun _ => (failsEarly_tool _ _ _).bind fun _ =>
      (failsEarly_tool _ _ _).bind fun _ => (failsEarly_limit _).bind fun _ =>
        (failsEarly_silence _).bind fun _ => .ok _

end Config

theorem Request.failsEarly_load (host : Host) (path : String) (output : Option String) :
    FailsEarly (load host path output) := by
  refine (Yaml.failsEarly_readFile host path _).bind fun v => ?_
  unfold ofDocument
  split
  · split
    · refine .ite (.error rfl) ?_
      simp only
      split
      · exact .ok _
      · exact .ok _
    · exact .error rfl
  · exact .error rfl

namespace CommandLine

/-- The configuration and the request of a command line, whose wish for silence counts besides
that of the configuration. -/
def loaded (arguments : Arguments) (host : Host) : Except Failure (Config × Request) := do
  let config ← Config.load host arguments.config
  let request ← Request.load host arguments.request arguments.output
  return ({ config with quiet := config.quiet || arguments.quiet }, request)

end CommandLine

end Montage
