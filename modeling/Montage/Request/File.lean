import Montage.Request.Fields
import Montage.Yaml.File

/-!
# Request files

A request is read from a YAML file.  It is a mapping that names its operation;
the operation is written in lower case without blanks around it, whatever the
file has.
-/

namespace Montage.Request

/-- The request in a document, with another output if one is given. -/
def ofDocument (v : Value) (output : Option String) : Except Failure Request :=
  match v with
  | .map entries =>
    match field entries ["operation"] with
    | .text operation =>
      if Text.isBlankText operation then refuse "operation" .required
      else
        let word := Text.lowerCase (Text.strip operation)
        let entries := Value.put entries (.text "operation") (.text word)
        match output with
        | none => .ok entries
        | some path => .ok (Value.put entries (.text "output") (.text path))
    | _ => refuse "operation" .required
  | _ => refuse none .notMapping

/-- The request in a file, with another output if one is given. -/
def load (host : Host) (path : String) (output : Option String) : Except Failure Request := do
  ofDocument (← Yaml.readFile host path .requestTooLarge) output

end Montage.Request
