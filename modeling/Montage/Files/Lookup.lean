import Montage.Files.Tree
import Montage.Text.CodePoint

/-!
# Looking up paths

From the text of a path to what stands there.  Every name on the way has to be a
directory or a link to one; links are followed at most forty times.  A look-up
that fails for any reason finds nothing.
-/

namespace Montage.FileTree

/-- The most links that one look-up follows. -/
def linkLimit : Nat := 40

/-- The most bytes of a single name. -/
def nameLimit : Nat := 255

/-- Paths of this many bytes are too long. -/
def pathLimit : Nat := 4096

/-- The size that a directory reports. -/
def directorySize : Nat := 4096

/-- The names of a path, in order.  A separator at the end asks for a directory,
like a `.` there. -/
def steps (path : List Char) : List (List Char) :=
  (path.splitOn '/').filter (fun name => !name.isEmpty) ++
    if path.getLast? == some '/' then [['.']] else []

/-- Walk from a directory along names.  At a link that has to be followed, `follow`
goes on from a place along names.  With `last`, a link at the end is followed too. -/
def walkAlong (tree : FileTree) (last : Bool) (follow : Place → List (List Char) → Option Place)
    (here : Place) (path : List (List Char)) : Option Place :=
  match path with
  | [] => some here
  | name :: rest =>
    if Text.byteCount name > nameLimit then none
    else if name == ['.'] then walkAlong tree last follow here rest
    else if name == ['.', '.'] then walkAlong tree last follow here.dropLast rest
    else
      match tree.entryAt (here ++ [name]) with
      | none => none
      | some .directory => walkAlong tree last follow (here ++ [name]) rest
      | some (.file _ _) => if rest.isEmpty then some (here ++ [name]) else none
      | some (.link target) =>
        if rest.isEmpty && !last then some (here ++ [name])
        else if target.isEmpty then none
        else
          let start := if Path.isAbsolute target.toList then [] else here
          follow start (steps target.toList ++ rest)

/-- Walk from a directory along names, following up to `links` links. -/
def walk (tree : FileTree) (last : Bool) (links : Nat) (here : Place) (path : List (List Char)) :
    Option Place :=
  match links with
  | 0 => tree.walkAlong last (fun _ _ => none) here path
  | links + 1 => tree.walkAlong last (walk tree last links) here path

/-- Whether the text can be looked up at all. -/
def isUsable (path : List Char) : Bool :=
  !path.isEmpty && Text.isSendable path && Text.byteCount path < pathLimit

/-- The place of a path that is relative to a directory. -/
def locate (tree : FileTree) (directory : Place) (last : Bool) (path : List Char) : Option Place :=
  if isUsable path then
    tree.walk last linkLimit (if Path.isAbsolute path then [] else directory) (steps path)
  else none

/-- What a path leads to. -/
def find? (tree : FileTree) (directory : Place) (path : String) : Option Entry :=
  (tree.locate directory true path.toList).bind tree.entryAt

/-- Whether a path leads to a file. -/
def isFile (tree : FileTree) (directory : Place) (path : String) : Bool :=
  match tree.find? directory path with
  | some (.file _ _) => true
  | _ => false

/-- Whether a path leads to a directory. -/
def isDirectory (tree : FileTree) (directory : Place) (path : String) : Bool :=
  tree.find? directory path == some .directory

/-- Whether a path leads to anything. -/
def doesExist (tree : FileTree) (directory : Place) (path : String) : Bool :=
  (tree.find? directory path).isSome

/-- The size of what a path leads to. -/
def size? (tree : FileTree) (directory : Place) (path : String) : Option Nat :=
  match tree.find? directory path with
  | some (.file _ size) => some size
  | some .directory => some directorySize
  | _ => none

/-- The text of a file, with line feeds at the ends of its lines. -/
def read? (tree : FileTree) (directory : Place) (path : String) : Option (List Char) :=
  match tree.find? directory path with
  | some (.file text _) => some (Text.unifyLineEnds text.toList)
  | _ => none

/-- The target of a link, if the path itself names one. -/
def linkTarget? (tree : FileTree) (directory : Place) (path : List Char) : Option (List Char) :=
  match (tree.locate directory false path).bind tree.entryAt with
  | some (.link target) => some target.toList
  | _ => none

end Montage.FileTree
