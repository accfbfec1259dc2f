import Montage.Failure
import Montage.Files.Lookup

/-!
# Changing files

Making directories, and creating and removing files by their paths.
-/

namespace Montage.FileTree

/-- What comes of making a directory. -/
inductive Making
  | made
  | alreadyThere
  | refused
  /-- No system call accepts the path. -/
  | unusable
  /-- More directories are missing than the runtime follows. -/
  | tooDeep
  deriving Repr, DecidableEq

/-- The place of a new directory, or what stands in its way. -/
def newPlace (tree : FileTree) (directory : Place) (path : List Char) : Except Making Place :=
  if !Text.isSendable path then .error .unusable
  else if !isUsable path then .error .refused
  else
    let start := if Path.isAbsolute path then [] else directory
    let names := (path.splitOn '/').filter fun name => !name.isEmpty
    match names.getLast? with
    | none => .error .alreadyThere
    | some name =>
      match tree.walk true linkLimit start (names.dropLast ++ [['.']]) with
      | none => .error .refused
      | some above =>
        if name == ['.'] || name == ['.', '.'] then .error .alreadyThere
        else if Text.byteCount name > nameLimit then .error .refused
        else if (tree.entryAt (above ++ [name])).isSome then .error .alreadyThere
        else .ok (above ++ [name])

/-- Make one directory. -/
def makeDirectory (tree : FileTree) (directory : Place) (path : List Char) : FileTree × Making :=
  match tree.newPlace directory path with
  | .ok place => (tree.put place .directory, .made)
  | .error making => (tree, making)

/-- Split a path before its last name, not counting a separator at its end. -/
def splitLast (path : List Char) : List Char × List Char :=
  let (head, tail) := Path.split path
  if tail.isEmpty then Path.split head else (head, tail)

/-- Make a directory and those above it that are missing, at most `depth` of
them.  A directory above that turns out to be there already does no harm. -/
def makeDirectories (tree : FileTree) (directory : Place) : Nat → List Char → FileTree × Making
  | 0, _ => (tree, .tooDeep)
  | depth + 1, path =>
    let (head, tail) := splitLast path
    if !head.isEmpty && !tail.isEmpty && !tree.doesExist directory (String.ofList head) then
      match makeDirectories tree directory depth head with
      | (tree, .refused) => (tree, .refused)
      | (tree, .unusable) => (tree, .unusable)
      | (tree, .tooDeep) => (tree, .tooDeep)
      | (tree, _) => if tail == ['.'] then (tree, .made) else tree.makeDirectory directory path
    else tree.makeDirectory directory path

/-- Make a directory and those above it that are missing. -/
def makePath (tree : FileTree) (directory : Place) (path : String) :
    FileTree × Except Failure Unit :=
  match tree.makeDirectories directory callLimit path.toList with
  | (tree, .made) => (tree, .ok ())
  | (tree, .unusable) => (tree, .error (.fault .badValue))
  | (tree, .tooDeep) => (tree, .error (.fault .endless))
  | (tree, _) => (tree, .error .system)

/-- Remove the file or link that a path names. -/
def unlink (tree : FileTree) (directory : Place) (path : String) : FileTree :=
  match tree.locate directory false path.toList with
  | some place => tree.remove place
  | none => tree

/-- Create a file with a text, and the directories above it. -/
def create (tree : FileTree) (directory : Place) (path text : String) : FileTree :=
  let place := match tree.locate directory true path.toList with
    | some place => place
    | none => Path.plainNames (Path.joinChars (Path.ofNames directory) path.toList)
  (tree.addParents place).put place (.file text text.utf8ByteSize)

end Montage.FileTree
