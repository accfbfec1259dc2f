import Montage.CommandLine.Flag

/-!
# Help

The text that explains the command line.
-/

namespace Montage.Help

/-- The name under which the program speaks of itself. -/
def programName : String := "editplan_cli.py"

/-- The column in which explanations stand. -/
def column : Nat := 24

/-- The spellings of a flag with the name of its value. -/
def spellings (flag : Flag) : String :=
  let value := match flag.valueName? with
    | none => ""
    | some name => " " ++ name
  "  " ++ String.ofList flag.short ++ value ++ ", " ++ String.ofList flag.long ++ value

/-- The lines about one flag.  Spellings that reach into the explanations have a
line of their own. -/
def flagLines (flag : Flag) : List String :=
  let head := spellings flag
  let margin := String.ofList (List.replicate column ' ')
  match flag.about with
  | [] => [head]
  | first :: rest =>
    if head.length + 2 ≤ column then
      (head ++ String.ofList (List.replicate (column - head.length) ' ') ++ first) ::
        rest.map (margin ++ ·)
    else head :: flag.about.map (margin ++ ·)

/-- All lines of the help. -/
def lines : List String :=
  [ "usage: " ++ programName ++ " [-h] -y YAMLFILE [-c CONFIG_FILE] [-o OUTPUT_FILE] [-n]",
    "                       [-p] [-q]",
    "",
    "Compile and run ffmpeg edit requests",
    "",
    "options:" ] ++ Flag.all.flatMap flagLines

end Montage.Help
