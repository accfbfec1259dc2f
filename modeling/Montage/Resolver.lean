import Montage.Host.Basic
import Montage.Plan.Basic

/-!
# Resolving file names

From the name of a file in a request to the file.  An absolute name stands for
itself.  A relative one is searched in a list of directories, in order, and must
not lead out of any directory that is looked at.
-/

namespace Montage.Resolver

/-- Whether a path stays inside a directory once all links are resolved: what
both have in common is the directory. -/
def isInside (host : Host) (directory path : String) : Except Failure Bool := do
  match host.realPath directory, host.realPath path with
  | .ok root, .ok target => return Path.common root target == root
  | .error fault, _ => throw (.fault fault)
  | _, .error fault => throw (.fault fault)

/-- Search a relative name in the directories. -/
def search (host : Host) (name : String) : List String → Except Failure Clip
  | [] => .error (.resolution name .notFound)
  | directory :: rest => do
    let path := Path.join directory name
    if !(← isInside host directory path) then throw (.resolution name (.escapes directory))
    if host.isFile path then return ⟨name, path⟩
    search host name rest

/-- The clip that a name stands for. -/
def resolveName (host : Host) (directories : List String) (name : String) : Except Failure Clip :=
  if Text.isBlankText name then .error (.resolution name .blank)
  else if Path.isAbsolute name.toList then
    if host.isFile name then .ok ⟨name, name⟩ else .error (.resolution name .notFound)
  else search host name directories

/-- The clip that a value stands for, which has to be a text. -/
def resolve (host : Host) (directories : List String) : Value → Except Failure Clip
  | .text name => resolveName host directories name
  | v => do throw (.resolution (← v.plain) .blank)

/-- The clips that several names stand for. -/
def resolveAll (host : Host) (directories : List String) : List Value → Except Failure (List Clip)
  | [] => .ok []
  | v :: rest => do
    let clip ← resolve host directories v
    return clip :: (← resolveAll host directories rest)

end Montage.Resolver
