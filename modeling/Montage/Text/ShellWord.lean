/-!
# Shell words

How an argument vector is shown as one line that a POSIX shell reads back into
the same arguments.
-/

namespace Montage.Text

/-- Characters that a shell never treats specially. -/
def isShellSafe (c : Char) : Bool :=
  c.isAlphanum || "_@%+=:,./-".toList.contains c

/-- One character between single quotes: a single quote is written between
double quotes. -/
def shellChar (c : Char) : List Char :=
  if c == '\'' then ['\'', '"', '\'', '"', '\''] else [c]

/-- An argument as one shell word, quoted only if it has to be. -/
def shellQuote (cs : List Char) : List Char :=
  if cs.isEmpty then ['\'', '\'']
  else if cs.all isShellSafe then cs
  else '\'' :: cs.flatMap shellChar ++ ['\'']

/-- An argument as one shell word. -/
def shellWord (s : String) : String := String.ofList (shellQuote s.toList)

/-- An argument vector as one line. -/
def shellLine (args : List String) : String :=
  " ".intercalate (args.map shellWord)

end Montage.Text
