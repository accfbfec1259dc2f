import Montage.Files.Change
import Montage.Files.Real
import Montage.Number
import Montage.Text.Case

/-!
# The host

The machine on which the program runs, as far as the program can see it: files,
environment, clock, and the two programs it starts.  A run is an action on the
host; what it leaves behind is the record of all it did.
-/

namespace Montage

/-- A reading of the local clock. -/
structure LocalTime where
  year : Nat := 2024
  month : Nat := 3
  day : Nat := 5
  hour : Nat := 14
  minute : Nat := 7
  second : Nat := 9
  deriving Repr, DecidableEq

/-- Why the system does not start a program. -/
structure Refusal where
  number : Int
  reason : String
  file : Option String := none
  deriving Repr, DecidableEq

/-- What a program does once it is started. -/
structure Behaviour where
  code : Int := 0
  stdout : String := ""
  stderr : String := ""
  refusal : Option Refusal := none
  /-- Under a time limit the program ends only when it is stopped. -/
  hangs : Bool := false
  /-- Behind what stands here, the output goes on with bytes that are no text. -/
  garbledOut : Bool := false
  /-- The complaints hold bytes that are no text. -/
  garbledErr : Bool := false
  writes : List String := []
  deletes : List String := []
  /-- The lines of its progress report. -/
  lines : List String := []
  deriving Repr

/-- The two programs that are started. -/
inductive Tool
  | prober
  | engine
  deriving Repr, DecidableEq

/-- Something the program set going outside itself. -/
inductive Event
  /-- A program that is run to its end, within a time limit if there is one. -/
  | run (tool : Tool) (command : List String) (limit : Option Number)
  /-- A program whose output is read while it runs. -/
  | stream (tool : Tool) (command : List String)
  /-- A timer that stops such a program. -/
  | timer (seconds : Number)

/-- A progress bar: its end, if that is known, and the steps it made. -/
structure Bar where
  total : Option Number
  updates : List Number := []

/-- The machine on which the program runs, and the record of what was done.  What is
printed can be printed: the console takes every text. -/
structure Host where
  directory : String := "/work"
  files : FileTree := {}
  /-- The places of files that the system does not let the program remove. -/
  held : List Place := []
  env : List (String × String) := []
  /-- The home directory, unless the environment names another. -/
  ownHome : String := "/home/user"
  /-- The users with their home directories. -/
  users : List (String × String) := []
  /-- The programs that can be found by name. -/
  programs : List (String × String) := []
  clock : LocalTime := {}
  /-- The seconds since the epoch, for naming. -/
  epoch : Number := .float 1709647629.042
  /-- The seconds since the epoch, for timing: one reading after the other, the
  last again and again. -/
  times : List Number := [.int 0]
  prober : Behaviour := {}
  engine : Behaviour := {}
  events : List Event := []
  bars : List Bar := []
  printed : String := ""
  complaints : String := ""

/-- An action on a host, which may fail.  What was done before a failure stays
done. -/
abbrev Action := ExceptT Failure (StateM Host)

namespace Host

/-- The place of the working directory. -/
def place (host : Host) : Place := Path.plainNames host.directory.toList

/-- The home directory. -/
def home (host : Host) : String := (host.env.lookup "HOME").getD host.ownHome

/-- The home directory of the user with a name; without a name, one's own. -/
def homeOf? (host : Host) (name : String) : Option String :=
  if name.isEmpty then some host.home else host.users.lookup name

/-- Whether a path leads to a file. -/
def isFile (host : Host) (path : String) : Bool := host.files.isFile host.place path

/-- Whether a path leads to a directory. -/
def isDirectory (host : Host) (path : String) : Bool := host.files.isDirectory host.place path

/-- Whether the system refuses to remove the file at a path. -/
def holds (host : Host) (path : String) : Bool :=
  (host.files.locate host.place false path.toList).any host.held.contains

/-- The absolute plain form of a path with all links resolved. -/
def realPath (host : Host) (path : String) : Except Fault (List Char) :=
  host.files.realPath host.directory path

/-- The texts that switch something on. -/
def isYes (text : String) : Bool :=
  ["1", "true", "yes", "on"].contains (Text.lowerCase (Text.strip text))

/-- Whether the environment asks for silence. -/
def isQuiet (host : Host) : Bool := isYes ((host.env.lookup "EDITPLAN_QUIET").getD "")

/-- What a started tool does. -/
def behaviour (host : Host) : Tool → Behaviour
  | .prober => host.prober
  | .engine => host.engine

/-- The files after a tool was started. -/
def afterStart (host : Host) (behaviour : Behaviour) : FileTree :=
  let written := behaviour.writes.foldl (fun tree path => tree.create host.place path "") host.files
  behaviour.deletes.foldl (fun tree path => tree.unlink host.place path) written

end Host

/-- The words for a refusal. -/
def Refusal.message (r : Refusal) : String :=
  "[Errno " ++ toString r.number ++ "] " ++ r.reason ++
    (match r.file with
      | none => ""
      | some file => ": " ++ Text.quoted file)

/-- The seconds of a time limit, if there is one. -/
def limitText : Option Number → String
  | none => "None"
  | some n => n.text

end Montage
