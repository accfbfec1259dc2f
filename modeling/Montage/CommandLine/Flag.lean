/-!
# Flags

The flags of the command line.  Each has a letter and a word, and some stand
before a value.
-/

namespace Montage

/-- A flag of the command line. -/
inductive Flag
  | help
  | request
  | config
  | output
  | dryRun
  | dumpPlan
  | quiet
  deriving Repr, DecidableEq

namespace Flag

/-- All flags, in the order in which they are explained. -/
def all : List Flag := [help, request, config, output, dryRun, dumpPlan, quiet]

/-- The letter of a flag. -/
def letter : Flag → Char
  | help => 'h'
  | request => 'y'
  | config => 'c'
  | output => 'o'
  | dryRun => 'n'
  | dumpPlan => 'p'
  | quiet => 'q'

/-- The word of a flag. -/
def word : Flag → String
  | help => "help"
  | request => "yaml"
  | config => "config"
  | output => "output"
  | dryRun => "dry-run"
  | dumpPlan => "dump-plan"
  | quiet => "quiet"

/-- What the value of a flag is called, if it has one. -/
def valueName? : Flag → Option String
  | request => some "YAMLFILE"
  | config => some "CONFIG_FILE"
  | output => some "OUTPUT_FILE"
  | _ => none

/-- Whether a value follows the flag. -/
def takesValue (flag : Flag) : Bool := flag.valueName?.isSome

/-- What a flag is for, line by line. -/
def about : Flag → List String
  | help => ["show this help message and exit"]
  | request => ["request yaml file describing the edit"]
  | config => ["engine config yaml (ffmpeg paths, directories,", "timeout)"]
  | output => ["override the generated output file name"]
  | dryRun => ["print the ffmpeg command, do not run it"]
  | dumpPlan => ["print the compiled execution plan as yaml"]
  | quiet => ["suppress progress output"]

/-- The short spelling of a flag. -/
def short (flag : Flag) : List Char := ['-', flag.letter]

/-- The long spelling of a flag. -/
def long (flag : Flag) : List Char := '-' :: '-' :: flag.word.toList

/-- Both spellings of a flag, as messages name it. -/
def title (flag : Flag) : String := String.ofList (flag.short ++ '/' :: flag.long)

/-- The flag with a letter. -/
def ofLetter? (c : Char) : Option Flag := all.find? fun flag => flag.letter == c

/-- The flag with a spelling. -/
def ofSpelling? (cs : List Char) : Option Flag :=
  all.find? fun flag => flag.short == cs || flag.long == cs

/-- The flags whose long spelling begins in a given way. -/
def beginningWith (start : List Char) : List Flag :=
  all.filter fun flag => start.isPrefixOf flag.long

end Flag

end Montage
