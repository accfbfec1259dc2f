import Montage.Path
import Montage.Text.Lines

/-!
# Files

The files, directories and symbolic links of a machine.  Each stands at a place,
the list of the names that lead to it from the root; the root itself is always a
directory.
-/

namespace Montage

/-- What can stand at a place. -/
inductive Entry
  | directory
  /-- A file with its text and the size it reports. -/
  | file (text : String) (size : Nat)
  | link (target : String)
  deriving Repr, DecidableEq

/-- A place: the names that lead to it from the root. -/
abbrev Place := List (List Char)

/-- The files, directories and links of a machine by their places. -/
structure FileTree where
  entries : List (Place × Entry) := []
  deriving Repr

namespace FileTree

/-- What stands at a place, if anything does. -/
def entryAt (tree : FileTree) (place : Place) : Option Entry :=
  if place.isEmpty then some .directory
  else (tree.entries.find? fun e => e.1 == place).map Prod.snd

/-- Put an entry at a place, instead of what is there. -/
def put (tree : FileTree) (place : Place) (entry : Entry) : FileTree :=
  ⟨tree.entries.filter (fun e => e.1 != place) ++ [(place, entry)]⟩

/-- Take away what is at a place. -/
def remove (tree : FileTree) (place : Place) : FileTree :=
  ⟨tree.entries.filter fun e => e.1 != place⟩

/-- Make directories of all places above a place at which nothing stands. -/
def addParents (tree : FileTree) (place : Place) : FileTree :=
  go tree [] place
where
  /-- Make directories of the places from `above` down. -/
  go (tree : FileTree) (above : Place) : Place → FileTree
    | [] => tree
    | [_] => tree
    | name :: rest =>
      let above := above ++ [name]
      let tree := if (tree.entryAt above).isNone then tree.put above .directory else tree
      go tree above rest

/-- The places of all files and links as path texts, in order. -/
def listing (tree : FileTree) : List String :=
  ((tree.entries.filter fun e => e.2 != .directory).map
    fun e => String.ofList (Path.ofNames e.1)).mergeSort fun a b => a ≤ b

theorem entryAt_remove_self (tree : FileTree) {place : Place} (h : place ≠ []) :
    (tree.remove place).entryAt place = none := by
  have hp : place.isEmpty = false := by simpa using h
  have hf : (tree.entries.filter fun e => e.1 != place).find? (fun e => e.1 == place) = none := by
    rw [List.find?_eq_none]
    intro e he
    have := (List.mem_filter.1 he).2
    simpa [bne_iff_ne] using this
  simp [entryAt, remove, hp, hf]

end FileTree

end Montage
