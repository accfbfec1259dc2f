import Montage.Text.Digit
import Montage.Yaml.Cursor

/-!
# Scalars of a YAML document

The five ways in which a text can be written: plain, between single or double
quotes, and as a literal or folded block.  Lines of the first three are folded:
a single line end counts as a space, of several the first is dropped.
-/

namespace Montage.Yaml

/-! ## Plain scalars -/

/-- Whether a colon before the given character ends a plain scalar. -/
def colonEnds (flow : Bool) (after : Char) : Bool :=
  isBlankOrEnd after || (flow && ",[]\x7b\x7d".toList.contains after)

/-- The characters of a plain scalar up to the next white space or indicator. -/
def plainRun (flow : Bool) : List Char → List Char
  | [] => []
  | ch :: rest =>
    if isBlankOrEnd ch || (ch == ':' && colonEnds flow (rest.headD endMark)) ||
        (flow && ",?[]\x7b\x7d".toList.contains ch) then []
    else ch :: plainRun flow rest

/-- Line ends and spaces at the start of lines, up to the next text.  Nothing
comes back if a document separator is met. -/
def plainBreaks : Nat → List Char → Cursor → Option (List Char) × Cursor
  | 0, done, c => (some done, c)
  | fuel + 1, done, c =>
    if c.peek == ' ' then plainBreaks fuel done c.next
    else if isBreak c.peek then
      let (br, c) := c.lineBreak
      if c.atSeparator then (none, c) else plainBreaks fuel (done ++ br) c
    else (some done, c)

/-- The space between two runs of a plain scalar, with a flag for a line end in
it.  No space means that the scalar is over. -/
def plainSpaces (fuel : Nat) (c : Cursor) : List Char × Bool × Cursor :=
  let (spaces, c) := c.takeWhile (· == ' ')
  if isBreak c.peek then
    let (br, c) := c.lineBreak
    if c.atSeparator then ([], true, c)
    else
      match plainBreaks fuel [] c with
      | (none, c) => ([], true, c)
      | (some breaks, c) =>
        if br != ['\n'] then (br ++ breaks, true, c)
        else (if breaks.isEmpty then [' '] else breaks, true, c)
  else (spaces, false, c)

/-- A plain scalar from its start or from a later run on, and whether it was
left at a line end. -/
def plainFrom (flow : Bool) (indent : Int) : Nat → List Char → Bool → Cursor →
    List Char × Bool × Cursor
  | 0, _, ended, c => ([], ended, c)
  | fuel + 1, spaces, ended, c =>
    let run := if c.peek == '#' then [] else plainRun flow c.ahead
    if run.isEmpty then ([], ended, c)
    else
      let (next, ended, c) := plainSpaces (fuel + 1) (c.skip run.length)
      if next.isEmpty || c.peek == '#' || (!flow && c.column < indent) then
        (spaces ++ run, ended, c)
      else
        let (rest, ended, c) := plainFrom flow indent fuel next ended c
        (spaces ++ run ++ rest, ended, c)

/-- A plain scalar.  Outside flow collections its lines have to be indented. -/
def plainScalar (flow : Bool) (indent : Int) (c : Cursor) : List Char × Bool × Cursor :=
  plainFrom flow indent (c.ahead.length + 1) [] false c

/-! ## Quoted scalars -/

/-- The character behind a one-letter escape. -/
def escaped? (ch : Char) : Option Char :=
  [('0', '\x00'), ('a', '\x07'), ('b', '\x08'), ('t', '\t'), ('\t', '\t'), ('n', '\n'),
    ('v', '\x0b'),
    ('f', '\x0c'), ('r', '\r'), ('e', '\x1b'), (' ', ' '), ('"', '"'), ('\\', '\\'), ('/', '/'),
    ('N', '\x85'), ('_', '\xa0'), ('L', '\u2028'), ('P', '\u2029')].lookup ch

/-- The number of hexadecimal digits behind an escape. -/
def escapeDigits? (ch : Char) : Option Nat :=
  if ch == 'x' then some 2 else if ch == 'u' then some 4 else if ch == 'U' then some 8 else none

/-- The value of some hexadecimal digits at the start of a text. -/
def hexValue? : Nat → Nat → List Char → Option Nat
  | 0, value, _ => some value
  | _ + 1, _, [] => none
  | n + 1, value, ch :: rest =>
    match Text.hexDigit? ch with
    | some d => hexValue? n (value * 16 + d) rest
    | none => none

/-- The characters of the code point with a number.  There are no code points with
larger numbers. -/
def charactersAt (n : Nat) : Except Error (List Char) :=
  if n ≥ 0x80000000 then .error (.fault .tooLarge)
  else if n ≥ 0x110000 then .error (.fault .badValue)
  else .ok (Text.ofCodePoint n)

/-- The line ends that follow one another in a quoted scalar, with the white
space around them. -/
def quotedBreaks : Nat → List Char → Cursor → Except Error (List Char × Cursor)
  | 0, done, c => .ok (done, c)
  | fuel + 1, done, c =>
    if c.atSeparator then .error .malformed
    else
      let c := c.skipWhile fun ch => ch == ' ' || ch == '\t'
      if isBreak c.peek then
        let (br, c) := c.lineBreak
        quotedBreaks fuel (done ++ br) c
      else .ok (done, c)

/-- An escape sequence; the cursor stands after the backslash. -/
def escapeSequence (fuel : Nat) (c : Cursor) : Except Error (List Char × Cursor) :=
  let ch := c.peek
  match escaped? ch with
  | some replacement => .ok ([replacement], c.next)
  | none =>
    match escapeDigits? ch with
    | some digits =>
      let c := c.next
      match hexValue? digits 0 c.ahead with
      | none => .error .malformed
      | some n => do return (← charactersAt n, c.skip digits)
    | none =>
      if isBreak ch then
        quotedBreaks fuel [] c.lineBreak.2
      else .error .malformed

/-- Whether the character stands for itself between quotes. -/
def isQuotedPlain (ch : Char) : Bool :=
  !(ch == '\'' || ch == '"' || ch == '\\' || isBlankOrEnd ch)

/-- The text between quotes up to white space or the closing quote. -/
def quotedRun (double : Bool) : Nat → Cursor → Except Error (List Char × Cursor)
  | 0, c => .ok ([], c)
  | fuel + 1, c => do
    let (run, c) := c.takeWhile isQuotedPlain
    let ch := c.peek
    let goOn (part : List Char) (c : Cursor) : Except Error (List Char × Cursor) := do
      let (rest, c) ← quotedRun double fuel c
      return (run ++ part ++ rest, c)
    if !double && ch == '\'' && c.peekAt 1 == '\'' then goOn ['\''] (c.skip 2)
    else if (double && ch == '\'') || (!double && (ch == '"' || ch == '\\')) then
      goOn [ch] c.next
    else if double && ch == '\\' then
      let (part, c) ← escapeSequence (fuel + 1) c.next
      goOn part c
    else return (run, c)

/-- The white space inside quotes, folded if it holds a line end. -/
def quotedSpaces (fuel : Nat) (c : Cursor) : Except Error (List Char × Cursor) := do
  let (spaces, c) := c.takeWhile fun ch => ch == ' ' || ch == '\t'
  if c.peek == endMark then throw .malformed
  else if isBreak c.peek then
    let (br, c) := c.lineBreak
    let (breaks, c) ← quotedBreaks fuel [] c
    if br != ['\n'] then return (br ++ breaks, c)
    else return (if breaks.isEmpty then [' '] else breaks, c)
  else return (spaces, c)

/-- The text between quotes, up to the closing one. -/
def quotedFrom (double : Bool) : Nat → Cursor → Except Error (List Char × Cursor)
  | 0, _ => .error .malformed
  | fuel + 1, c => do
    let (run, c) ← quotedRun double (fuel + 1) c
    if c.peek == (if double then '"' else '\'') then return (run, c.next)
    else
      let (spaces, c) ← quotedSpaces (fuel + 1) c
      let (rest, c) ← quotedFrom double fuel c
      return (run ++ spaces ++ rest, c)

/-- A quoted scalar; the cursor stands before its opening quote. -/
def quotedScalar (double : Bool) (c : Cursor) : Except Error (List Char × Cursor) :=
  quotedFrom double (c.ahead.length + 1) c.next

/-! ## Block scalars -/

/-- What happens to the line ends at the end of a block. -/
inductive Chomping
  | clip
  | strip
  | keep
  deriving Repr, DecidableEq

/-- The chomping that an indicator asks for. -/
def chomping? (ch : Char) : Option Chomping :=
  if ch == '+' then some .keep else if ch == '-' then some .strip else none

/-- The indentation that an indicator asks for, which cannot be zero. -/
def indentation? (c : Cursor) : Except Error (Option Nat × Cursor) :=
  match Text.asciiDigit? c.peek with
  | none => .ok (none, c)
  | some 0 => .error .malformed
  | some n => .ok (some n, c.next)

/-- The indicators at the head of a block, in either order. -/
def blockHeader (c : Cursor) : Except Error (Chomping × Option Nat × Cursor) := do
  let (chomping, indent, c) ← match chomping? c.peek with
    | some chomping => do
      let (indent, c) ← indentation? c.next
      pure (chomping, indent, c)
    | none => do
      let (indent, c) ← indentation? c
      match indent, chomping? c.peek with
      | some n, some chomping => pure (chomping, some n, c.next)
      | indent, _ => pure (.clip, indent, c)
  if isSpaceOrEnd c.peek then return (chomping, indent, c) else throw .malformed

/-- Spaces and line ends before the first text of a block, and the widest
indentation seen there. -/
def blockIndentation : Nat → List Char → Nat → Cursor → List Char × Nat × Cursor
  | 0, done, widest, c => (done, widest, c)
  | fuel + 1, done, widest, c =>
    if c.peek == ' ' then
      let c := c.next
      blockIndentation fuel done (max widest c.column) c
    else if isBreak c.peek then
      let (br, c) := c.lineBreak
      blockIndentation fuel (done ++ br) widest c
    else (done, widest, c)

/-- Move past spaces up to a column. -/
def skipIndent (indent : Nat) (c : Cursor) : Cursor :=
  c.skip ((c.ahead.take (indent - c.column)).takeWhile (· == ' ')).length

/-- Line ends between the lines of a block. -/
def blockBreaks (indent : Nat) : Nat → List Char → Cursor → List Char × Cursor
  | 0, done, c => (done, c)
  | fuel + 1, done, c =>
    let c := skipIndent indent c
    if isBreak c.peek then
      let (br, c) := c.lineBreak
      blockBreaks indent fuel (done ++ br) c
    else (done, c)

/-- Whether the line of a block begins with white space. -/
def startsBlank (c : Cursor) : Bool := c.peek == ' ' || c.peek == '\t'

/-- The lines of a block from one line on.  `breaks` are the line ends before
that line; what comes back are the text, the line end after the last line and
the line ends after that. -/
def blockLines (folded : Bool) (indent : Nat) : Nat → List Char → Cursor →
    List Char × List Char × List Char × Cursor
  | 0, breaks, c => ([], [], breaks, c)
  | fuel + 1, breaks, c =>
    let flush := !startsBlank c
    let (run, c) := c.takeWhile (!isBreakOrEnd ·)
    let (br, c) := c.lineBreak
    let (next, c) := blockBreaks indent (fuel + 1) [] c
    if c.column == indent && c.peek != endMark then
      let joint :=
        if folded && br == ['\n'] && flush && !startsBlank c then
          if next.isEmpty then [' '] else []
        else br
      let (rest, br, last, c) := blockLines folded indent fuel next c
      (breaks ++ run ++ joint ++ rest, br, last, c)
    else (breaks ++ run, br, next, c)

/-- A block scalar; the cursor stands before its indicator. -/
def blockScalar (folded : Bool) (indent : Int) (c : Cursor) :
    Except Error (List Char × Cursor) := do
  let (chomping, increment, c) ← blockHeader c.next
  let c ← c.ignoredLine
  let least := (max 1 (indent + 1)).toNat
  let (width, breaks, c) : Nat × List Char × Cursor := match increment with
    | none =>
      let (breaks, widest, c) := blockIndentation (c.ahead.length + 1) [] 0 c
      (max least widest, breaks, c)
    | some n =>
      let (breaks, c) := blockBreaks (least + n - 1) (c.ahead.length + 1) [] c
      (least + n - 1, breaks, c)
  let (text, br, last, c) :=
    if c.column == width && c.peek != endMark then
      blockLines folded width (c.ahead.length + 1) breaks c
    else ([], [], breaks, c)
  match chomping with
  | .clip => return (text ++ br, c)
  | .strip => return (text, c)
  | .keep => return (text ++ br ++ last, c)

end Montage.Yaml
