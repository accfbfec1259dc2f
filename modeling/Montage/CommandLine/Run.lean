import Montage.CommandLine.Arguments
import Montage.CommandLine.Help
import Montage.Compiler
import Montage.Config.Settings
import Montage.Render
import Montage.Request.File
import Montage.Yaml.Printer

/-!
# The command line

One run of the program: its words are read, the configuration and the request
are loaded, and the request is described, compiled, shown or rendered.  The run
comes to an exit status; a failure that the user cannot be told about in a line
escapes.
-/

namespace Montage.CommandLine

/-- The exit status after a command line or a request that makes no sense. -/
def refusedStatus : Nat := 2

/-- The exit status after a failure of the engine. -/
def engineStatus : Nat := 1

/-- Show what a request comes to, or carry it out. -/
def work (arguments : Arguments) : Action Nat := do
  let host ← get
  let config ← Config.load host arguments.config
  let config := { config with quiet := config.quiet || arguments.quiet }
  let request ← Request.load host arguments.request arguments.output
  let compiler := Compiler.ofConfig config
  match request.field ["operation"] with
  | .text "info" =>
    Action.print (Yaml.print (.map (← compiler.info request)))
    return 0
  | _ =>
    let plan ← compiler.compile request (Compiler.ask config)
    if arguments.dumpPlan then Action.print (Yaml.print plan.toValue)
    else if arguments.dryRun then Action.print (Text.shellLine (plan.command config.engine false))
    else Action.print (← Render.render plan config)
    return 0

/-- Turn the failures of requests and of the engine into a line of complaint and
an exit status. -/
def settle (failure : Failure) : Action Nat :=
  if failure.isCompilation then do
    Action.complain ("error: " ++ failure.message)
    return refusedStatus
  else if failure.isEngine then do
    Action.complain ("ffmpeg error: " ++ failure.message)
    return engineStatus
  else throw failure

/-- Run the program with the words of its command line. -/
def run (words : List String) : Action Nat :=
  match Arguments.read words with
  | .error usage => do
    Action.complain (Help.programName ++ ": error: " ++ usage.message)
    return refusedStatus
  | .ok none => do
    Help.lines.forM Action.print
    return 0
  | .ok (some arguments) => tryCatch (work arguments) settle

end Montage.CommandLine
