import Montage.Host.Basic
import Montage.Yaml.Document

/-!
# YAML files

Reading the one document of a YAML file on the host.  Large files are refused
before they are opened.
-/

namespace Montage.Yaml

/-- The most bytes of a file that is read. -/
def sizeLimit : Nat := 1000000

/-- What an unreadable document means for a run. -/
def Error.toFailure : Error → Failure
  | malformed => .yaml
  | fault cause => .fault cause

/-- The value in a file, unless the file reports more bytes than the limit. -/
def readFile (host : Host) (path : String) (tooLarge : SetupCause) : Except Failure Value := do
  if !Text.isSendable path.toList then throw (.fault .badValue)
  match host.files.size? host.place path with
  | none => throw .system
  | some size =>
    if sizeLimit < size then throw (.setup tooLarge)
    match host.files.read? host.place path with
    | none => throw .system
    | some text => (read text).mapError Error.toFailure

end Montage.Yaml
