import Montage.CommandLine.Flag
import Montage.Text.Digit
import Montage.Text.Quoted

/-!
# Arguments

How the words of a command line are read.  A word is a flag, the separator after
which no word is a flag, or plain text.  Letters of flags can share a word, the
last of them with its value; the word of a flag can be cut short as long as it
can be told apart.  Flags are taken from left to right; plain text that is no
flag's value is left over.
-/

namespace Montage

/-- Why a command line is refused. -/
inductive UsageError
  | ambiguous (word : String) (flags : List Flag)
  | valueMissing (flag : Flag)
  | valueUnexpected (flag : Flag) (value : String)
  | required (flag : Flag)
  | leftOver (words : List String)
  deriving Repr, DecidableEq

/-- The words for a refused command line. -/
def UsageError.message : UsageError → String
  | ambiguous word flags =>
    "ambiguous option: " ++ word ++ " could match " ++
      ", ".intercalate (flags.map fun flag => String.ofList flag.long)
  | valueMissing flag => "argument " ++ flag.title ++ ": expected one argument"
  | valueUnexpected flag value =>
    "argument " ++ flag.title ++ ": ignored explicit argument " ++ Text.quoted value
  | required flag => "the following arguments are required: " ++ flag.title
  | leftOver words => "unrecognized arguments: " ++ " ".intercalate words

/-- What a command line asks for. -/
structure Arguments where
  request : String
  config : Option String
  output : Option String
  dryRun : Bool
  dumpPlan : Bool
  quiet : Bool
  deriving Repr, DecidableEq

namespace Arguments

/-- What stands in one word with a flag. -/
inductive Attached
  | nothing
  /-- A value after an equals sign. -/
  | value (text : List Char)
  /-- A value or more letters. -/
  | more (text : List Char)
  deriving Repr, DecidableEq

/-- A word of the command line. -/
inductive Word
  | plain (text : List Char)
  /-- After it no word is a flag. -/
  | separator
  | short (flag : Flag) (attached : Attached)
  | long (flag : Flag) (value : Option (List Char))
  /-- It looks like a flag and is none. -/
  | stranger (text : List Char)
  deriving Repr, DecidableEq

/-- Split a word at its first equals sign. -/
def splitEquals (cs : List Char) : List Char × Option (List Char) :=
  match cs.dropWhile (· != '=') with
  | [] => (cs, none)
  | _ :: value => (cs.takeWhile (· != '='), some value)

/-- Whether the text is a minus sign and a decimal number.  One line feed may
end it. -/
def isNegativeNumber : List Char → Bool
  | '-' :: rest =>
    let body := if rest.getLast? == some '\n' then rest.dropLast else rest
    match body.dropWhile Text.isDigit with
    | [] => !body.isEmpty
    | '.' :: digits => !digits.isEmpty && digits.all Text.isDigit
    | _ => false
  | _ => false

/-- A word that looks like a flag and is none: negative numbers and words with
blanks are plain. -/
def unmatched (cs : List Char) : Word :=
  if isNegativeNumber cs || cs.contains ' ' then .plain cs else .stranger cs

/-- Read a word that begins with two minus signs. -/
def classifyLong (cs : List Char) : Except UsageError Word :=
  let (name, value) := splitEquals cs
  match Flag.ofSpelling? name with
  | some flag => .ok (.long flag value)
  | none =>
    match Flag.beginningWith name with
    | [] => .ok (unmatched cs)
    | [flag] => .ok (.long flag value)
    | flags => .error (.ambiguous (String.ofList cs) flags)

/-- Read a word that begins with one minus sign. -/
def classifyShort (c : Char) (rest : List Char) : Word :=
  match Flag.ofLetter? c, rest with
  | none, _ => unmatched ('-' :: c :: rest)
  | some flag, [] => .short flag .nothing
  | some flag, '=' :: value => .short flag (.value value)
  | some flag, rest => .short flag (.more rest)

/-- Read one word. -/
def classify (cs : List Char) : Except UsageError Word :=
  match cs with
  | ['-', '-'] => .ok .separator
  | '-' :: '-' :: _ => classifyLong cs
  | '-' :: c :: rest => .ok (classifyShort c rest)
  | _ => .ok (.plain cs)

/-- Read all words. -/
def classifyAll : List String → Except UsageError (List Word)
  | [] => .ok []
  | "--" :: rest => .ok (.separator :: rest.map fun word => .plain word.toList)
  | word :: rest => do return (← classify word.toList) :: (← classifyAll rest)

/-- A flag with its value; the value of a flag that takes none is empty. -/
abbrev Given := Flag × List Char

/-- What one word comes to. -/
structure Group where
  /-- The flags that are complete, in order. -/
  flags : List Given := []
  /-- A last flag whose value is the next word. -/
  awaiting : Option Flag := none
  /-- The text that is left over. -/
  stray : Option (List Char) := none

/-- Put a flag without a value before the others. -/
def Group.after (flag : Flag) (group : Group) : Group :=
  { group with flags := (flag, []) :: group.flags }

/-- The flags of a word of letters. -/
def Group.ofShort (flag : Flag) (attached : Attached) : Except UsageError Group :=
  match attached with
  | .nothing =>
    .ok (if flag.takesValue then { awaiting := some flag } else { flags := [(flag, [])] })
  | .value text =>
    if flag.takesValue then .ok { flags := [(flag, text)] }
    else .error (.valueUnexpected flag (String.ofList text))
  | .more text =>
    if flag.takesValue then .ok { flags := [(flag, text)] }
    else
      match text with
      | [] | '-' :: _ => .error (.valueUnexpected flag (String.ofList text))
      | c :: rest =>
        match Flag.ofLetter? c, rest with
        | none, _ => .ok { flags := [(flag, [])], stray := some ('-' :: c :: rest) }
        | some next, [] => (Group.ofShort next .nothing).map (Group.after flag)
        | some next, '=' :: value => (Group.ofShort next (.value value)).map (Group.after flag)
        | some next, d :: more => (Group.ofShort next (.more (d :: more))).map (Group.after flag)
termination_by sizeOf attached

/-- What a word comes to. -/
def Group.ofWord : Word → Except UsageError Group
  | .plain text | .stranger text => .ok { stray := some text }
  | .separator => .ok { stray := some ['-', '-'] }
  | .short flag attached => Group.ofShort flag attached
  | .long flag none => Group.ofShort flag .nothing
  | .long flag (some value) => Group.ofShort flag (.value value)

/-- Whether a flag is given. -/
def isGiven (flags : List Given) (flag : Flag) : Bool := flags.any fun given => given.1 == flag

/-- The flags of all words in order, each with its value, and the text that is
left over.  Nothing is read after a call for help. -/
def sortWords (words : List Word) : Except UsageError (List Given × List (List Char)) :=
  match words with
  | [] => .ok ([], [])
  | word :: rest => do
    let group ← Group.ofWord word
    match group.awaiting, rest with
    | none, rest =>
      if isGiven group.flags .help then return (group.flags, [])
      let (flags, spare) ← sortWords rest
      return (group.flags ++ flags, group.stray.toList ++ spare)
    | some flag, .plain value :: rest =>
      if isGiven group.flags .help then return (group.flags, [])
      let (flags, spare) ← sortWords rest
      return (group.flags ++ (flag, value) :: flags, spare)
    | some flag, _ => throw (.valueMissing flag)
termination_by words.length

/-- The last value of a flag, if it is given. -/
def last? (flags : List Given) (flag : Flag) : Option String :=
  (flags.reverse.lookup flag).map String.ofList

/-- What a command line asks for, or nothing if it asks for help. -/
def read (words : List String) : Except UsageError (Option Arguments) := do
  let (flags, spare) ← sortWords (← classifyAll words)
  if isGiven flags .help then return none
  match last? flags .request with
  | none => throw (.required .request)
  | some request =>
    if !spare.isEmpty then throw (.leftOver (spare.map String.ofList))
    return some {
      request
      config := last? flags .config
      output := last? flags .output
      dryRun := isGiven flags .dryRun
      dumpPlan := isGiven flags .dumpPlan
      quiet := isGiven flags .quiet }

end Arguments

end Montage
