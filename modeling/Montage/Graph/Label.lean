import Montage.Decimal.Numeral
import Montage.Failure

/-!
# Link labels

The links of a filter graph carry labels.  A label of the form `3:v` or `3:a` is
a raw stream: the video or audio of the input with that number.  Every other
label is produced by a chain of the graph.
-/

namespace Montage

/-- The two kinds of streams an input can have. -/
inductive Stream
  | video
  | audio
  deriving Repr, DecidableEq

namespace Stream

/-- The letter of a stream in a label. -/
def letter : Stream → Char
  | video => 'v'
  | audio => 'a'

/-- The stream with the given letter. -/
def ofLetter? (c : Char) : Option Stream :=
  if c == 'v' then some video else if c == 'a' then some audio else none

theorem ofLetter?_letter (s : Stream) : ofLetter? s.letter = some s := by
  cases s <;> rfl

end Stream

namespace Label

/-- The label of an input's own stream. -/
def raw (input : Int) (stream : Stream) : String :=
  toString input ++ ":" ++ stream.letter.toString

/-- The label of a clip's video after its filters. -/
def clipVideo (index : Int) : String := "v" ++ toString index

/-- The digits and the stream of a raw label.  Digits of any script count, and
one line feed may end the label. -/
def rawParts? (label : List Char) : Option (List Char × Stream) :=
  let digits := label.takeWhile Text.isDigit
  if digits.isEmpty then none
  else
    match label.dropWhile Text.isDigit with
    | [':', c] | [':', c, '\n'] => (Stream.ofLetter? c).map fun stream => (digits, stream)
    | _ => none

/-- Whether the label is a raw stream. -/
def isRaw (label : String) : Bool := (rawParts? label.toList).isSome

/-- The input number of a raw label; a number too long to be read is a fault. -/
def rawInput? (label : String) : Except Fault (Option Int) :=
  match rawParts? label.toList with
  | none => .ok none
  | some (digits, _) =>
    match Decimal.readInteger 10 digits with
    | .ok n => .ok (some n)
    | .error _ => .error .badValue

/-- Labels by code point. -/
def sort (labels : List String) : List String :=
  labels.mergeSort fun a b => !decide (b < a)

end Label

end Montage
