import Montage.CommandLine.Run
import Std.Time.Zoned

/-!
# The program

The outer layer.  It looks at the machine once, runs the command line on what it
saw, and shows what the run printed.  It changes no file and starts no tool: to
the run both tools are missing, so requests can be checked, described and shown
as a command, but not rendered.
-/

namespace Montage.Program

/-- The number of levels below the working directory that are looked at. -/
def depth : Nat := 6

/-- The path of a place. -/
def pathOf (place : Place) : String := String.ofList (Path.ofNames place)

/-- What stands at a place.  The text of a file is read only if a word of the
command line names it. -/
def entryAt (words : List String) (place : Place) : IO (Option Entry) := do
  let path ← IO.FS.realPath (pathOf place)
  if path.toString != pathOf place then return some (.link path.toString)
  let data ← path.metadata
  match data.type with
  | .dir => return some .directory
  | .file =>
    let isNamed := words.any fun word =>
      pathOf place == word || (pathOf place).endsWith ("/" ++ word)
    let text ← if isNamed then IO.FS.readFile path else pure ""
    return some (.file text data.byteSize.toNat)
  | _ => return none

/-- The names in a directory. -/
def namesIn (place : Place) : IO (List (List Char)) := do
  let entries ← (← IO.FS.realPath (pathOf place)).readDir
  return entries.toList.map fun entry => entry.fileName.toList

/-- Add what stands at a place and below it.  What cannot be seen is left
out. -/
def look (words : List String) : Nat → FileTree → Place → IO FileTree
  | 0, tree, _ => return tree
  | depth + 1, tree, place => do
    match ← (try entryAt words place catch _ => pure none) with
    | none => return tree
    | some .directory =>
      let names ← try namesIn place catch _ => pure []
      names.foldlM (fun tree name => look words depth tree (place ++ [name]))
        (tree.put place .directory)
    | some entry => return tree.put place entry

/-- The variables that the program reads, as far as they are set. -/
def environment : IO (List (String × String)) := do
  let found ← ("HOME" :: Config.keys.map Prod.snd).mapM fun name => do
    return (← IO.getEnv name).map fun value => (name, value)
  return found.filterMap id

/-- The programs in the directories of the search path, the first directory
first. -/
def programs : IO (List (String × String)) := do
  let directories := ((← IO.getEnv "PATH").getD "").splitOn ":"
  let found ← directories.mapM fun directory => do
    let names ← try namesIn (Path.plainNames directory.toList) catch _ => pure []
    return names.map fun name => (String.ofList name, Path.join directory (String.ofList name))
  return found.flatten

/-- The local time. -/
def localTime : IO LocalTime := do
  let now ← Std.Time.PlainDateTime.now
  return {
    year := now.year.toInt.toNat
    month := now.month.val.toNat
    day := now.day.val.toNat
    hour := now.hour.val.toNat
    minute := now.minute.val.toNat
    second := now.second.val.toNat }

/-- A tool that is not there. -/
def missing (name : String) : Behaviour :=
  { refusal := some ⟨2, "No such file or directory", some name⟩ }

/-- The machine as the program sees it. -/
def host (words : List String) : IO Host := do
  let directory := (← IO.currentDir).toString
  let place := Path.plainNames directory.toList
  let now ← Std.Time.Timestamp.now
  let epoch := Number.float (Float.ofInt now.toNanosecondsSinceUnixEpoch.val / 1000000000.0)
  return {
    directory
    files := ← look words depth (FileTree.addParents {} place) place
    env := ← environment
    programs := ← programs
    clock := ← localTime
    epoch
    times := [epoch]
    prober := missing "ffprobe"
    engine := missing "ffmpeg" }

end Montage.Program

/-- Run the program with the words of its command line. -/
def main (words : List String) : IO UInt32 := do
  let (outcome, host) := (Montage.CommandLine.run words).runOn (← Montage.Program.host words)
  IO.print host.printed
  IO.eprint host.complaints
  match outcome with
  | .ok status => return status.toUInt32
  | .error failure =>
    IO.eprintln failure.message
    return 1
