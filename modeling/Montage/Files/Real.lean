import Montage.Failure
import Montage.Files.Lookup

/-!
# Real paths

The path of a file with every symbolic link resolved.  Parts that do not exist
are kept as they are, and a link that leads back to itself is left unresolved
together with all that follows it.
-/

namespace Montage.FileTree

/-- A path as far as it is resolved, whether that went to its end, and the links
met so far with the paths they resolve to. -/
structure Resolution where
  path : List Char
  complete : Bool
  met : List (List Char × Option (List Char))

/-- A path without its last name, where `..` at its end is one more level up. -/
def stepUp (path : List Char) : List Char :=
  if path.isEmpty then ['.', '.']
  else
    let (head, tail) := Path.split path
    if tail == ['.', '.'] then Path.joinChars (Path.joinChars head ['.', '.']) ['.', '.'] else head

/-- Resolve the rest of a path below what is resolved already. -/
def resolveFrom (tree : FileTree) (directory : Place) :
    Nat → List (List Char × Option (List Char)) → List Char → List Char → Except Fault Resolution
  | 0, met, path, rest => .ok ⟨Path.joinChars path rest, false, met⟩
  | fuel + 1, met, path, rest =>
    if rest.isEmpty then .ok ⟨path, true, met⟩
    else
      let name := rest.takeWhile (· != '/')
      let rest := (rest.dropWhile (· != '/')).drop 1
      if name.isEmpty || name == ['.'] then resolveFrom tree directory fuel met path rest
      else if name == ['.', '.'] then resolveFrom tree directory fuel met (stepUp path) rest
      else
        let next := Path.joinChars path name
        if !Text.isSendable next then .error .badValue
        else
          match tree.linkTarget? directory next with
          | none => resolveFrom tree directory fuel met next rest
          | some target =>
            match met.lookup next with
            | some (some resolved) => resolveFrom tree directory fuel met resolved rest
            | some none => .ok ⟨Path.joinChars next rest, false, met⟩
            | none =>
              let start := if Path.isAbsolute target then ['/'] else path
              match resolveFrom tree directory fuel ((next, none) :: met) start target with
              | .error fault => .error fault
              | .ok ⟨path, false, met⟩ => .ok ⟨Path.joinChars path rest, false, met⟩
              | .ok ⟨path, true, met⟩ =>
                resolveFrom tree directory fuel ((next, some path) :: met) path rest

/-- The lengths of the targets of all links together. -/
def linkLength : List (Place × Entry) → Nat
  | [] => 0
  | (_, .link target) :: rest => target.length + 1 + linkLength rest
  | _ :: rest => linkLength rest

/-- More steps than a path takes whose links are each entered by an absolute and
a relative path. -/
def resolutionLimit (tree : FileTree) (path : List Char) : Nat :=
  path.length + 2 + 2 * linkLength tree.entries

/-- The absolute plain form of a path with all links resolved.  A path that no
system call accepts has none. -/
def realPath (tree : FileTree) (directory path : String) : Except Fault (List Char) := do
  let place := Path.plainNames directory.toList
  let cs := path.toList
  let start := if Path.isAbsolute cs then ['/'] else []
  let r ← tree.resolveFrom place (tree.resolutionLimit cs) [] start cs
  return Path.plainForm (Path.joinChars directory.toList r.path)

end Montage.FileTree
