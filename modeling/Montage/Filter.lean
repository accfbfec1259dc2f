import Montage.Value.Text

/-!
# Filters

One filter of a filter graph: a name and its arguments, each with or without a
key, and the text in which the render engine reads it.
-/

namespace Montage

/-- The value of a filter argument, in the number system `α`. -/
inductive Arg (α : Type)
  | number (x : α)
  | text (s : String)
  /-- Presentation times multiplied by a number. -/
  | scaledTime (factor : α)
  /-- Any other value, shown as it stands. -/
  | value (v : Value)

/-- A filter: its name and its arguments with their optional keys. -/
structure Filter (α : Type) where
  name : String
  args : List (Option String × Arg α) := []

variable {α : Type} [Arithmetic α]

/-- The text of an argument's value. -/
def Arg.render : Arg α → String
  | number x => Arithmetic.text x
  | text s => s
  | scaledTime factor => Arithmetic.text factor ++ "*PTS"
  | value v => v.plainText

namespace Filter

/-- The text of an argument with its key. -/
def renderArg : Option String × Arg α → String
  | (none, arg) => arg.render
  | (some key, arg) => key ++ "=" ++ arg.render

/-- The text of a filter: its name, then the arguments between colons. -/
def render (f : Filter α) : String :=
  if f.args.isEmpty then f.name
  else f.name ++ "=" ++ ":".intercalate (f.args.map renderArg)

/-- A filter written by the caller.  The text up to the first equals sign is the
name; what follows is one argument, taken as it stands. -/
def ofExpression (expression : String) : Filter α :=
  let cs := Text.trim expression.toList
  match cs.dropWhile (· != '=') with
  | [] => ⟨String.ofList cs, []⟩
  | _ :: argument =>
    ⟨String.ofList (Text.trim (cs.takeWhile (· != '='))),
      [(none, .text (String.ofList argument))]⟩

/-- A filter whose arguments have no keys. -/
def positional (name : String) (args : List (Arg α)) : Filter α :=
  ⟨name, args.map fun arg => (none, arg)⟩

end Filter

end Montage
