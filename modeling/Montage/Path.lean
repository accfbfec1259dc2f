/-!
# Path texts

What can be done with the text of a path alone, without a look at any file:
joining, splitting, and the plain form without `.`, `..` and repeated
separators.
-/

namespace Montage.Path

/-- Whether the path starts at the root. -/
def isAbsolute : List Char → Bool
  | '/' :: _ => true
  | _ => false

/-- A path below another; an absolute path stands alone. -/
def joinChars (base path : List Char) : List Char :=
  if isAbsolute path || base.isEmpty then path
  else if base.getLast? == some '/' then base ++ path
  else base ++ '/' :: path

/-- A path below another; an absolute path stands alone. -/
def join (base path : String) : String := String.ofList (joinChars base.toList path.toList)

/-- The names between the separators; repeated separators and `.` stand for
nothing. -/
def names (path : List Char) : List (List Char) :=
  (path.splitOn '/').filter fun name => !name.isEmpty && name != ['.']

/-- Drop the separators at the end, unless there is nothing else. -/
def dropSeparators (path : List Char) : List Char :=
  if path.all (· == '/') then path else (path.reverse.dropWhile (· == '/')).reverse

/-- Split a path before its last name.  The separators between the two parts are
dropped. -/
def split (path : List Char) : List Char × List Char :=
  let tail := (path.reverse.takeWhile (· != '/')).reverse
  let head := (path.reverse.dropWhile (· != '/')).reverse
  (dropSeparators head, tail)

/-- The path without its last name. -/
def parent (path : String) : String := String.ofList (split path.toList).1

/-- Follow names from a place given by the names above it, last first, as far as
texts can tell. -/
def follow (above : List (List Char)) : List (List Char) → List (List Char)
  | [] => above
  | name :: rest =>
    if name == ['.', '.'] then follow above.tail rest else follow (name :: above) rest

/-- The names of an absolute path in plain form. -/
def plainNames (path : List Char) : List (List Char) := (follow [] (names path)).reverse

/-- The absolute path with the given names. -/
def ofNames (names : List (List Char)) : List Char := '/' :: ['/'].intercalate names

/-- The plain form of an absolute path.  Exactly two leading separators are
kept. -/
def plainForm (path : List Char) : List Char :=
  match path with
  | '/' :: '/' :: '/' :: _ => ofNames (plainNames path)
  | '/' :: '/' :: _ => '/' :: ofNames (plainNames path)
  | _ => ofNames (plainNames path)

/-- The names with which two lists of names both begin. -/
def commonNames : List (List Char) → List (List Char) → List (List Char)
  | a :: as, b :: bs => if a == b then a :: commonNames as bs else []
  | _, _ => []

/-- The longest path at or above two absolute paths. -/
def common (a b : List Char) : List Char := ofNames (commonNames (names a) (names b))

/-- The absolute plain form of a path that is relative to a directory. -/
def absolute (directory path : String) : String :=
  String.ofList (plainForm (joinChars directory.toList path.toList))

/-- Whose home directory a path starts at: the name after a leading `~`, up to the
first slash. -/
def userName (path : String) : List Char :=
  match path.toList with
  | '~' :: rest => rest.takeWhile (· != '/')
  | _ => []

/-- Replace a leading `~` and the name behind it by the home directory of the user
with that name, where there is one; without a name, by one's own. -/
def expandHome (homeOf? : String → Option String) (path : String) : String :=
  match path.toList with
  | '~' :: rest =>
    match homeOf? (String.ofList (userName path)) with
    | none => path
    | some home =>
      let home := (home.toList.reverse.dropWhile (· == '/')).reverse
      let result := home ++ rest.dropWhile (· != '/')
      if result.isEmpty then "/" else String.ofList result
  | _ => path

end Montage.Path
