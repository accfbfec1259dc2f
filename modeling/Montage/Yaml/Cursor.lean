import Montage.Failure

/-!
# Positions in a YAML document

The text that lies ahead, and where in the document it begins: how many
characters in, on which line, and in which column.  The end of the document
reads as the null character, which no document holds.
-/

namespace Montage.Yaml

/-- Why a document is not read: it is malformed, or reading it comes upon a mistake that
nobody expects. -/
inductive Error
  | malformed
  | fault (fault : Fault)
  deriving Repr, DecidableEq

/-- The null character, which stands for the end of the document. -/
def endMark : Char := '\x00'

/-- Whether the character ends a line. -/
def isBreak (c : Char) : Bool := c == '\n' || c == '\x85' || c == '\u2028' || c == '\u2029'

/-- Whether the character ends a line or the document. -/
def isBreakOrEnd (c : Char) : Bool := isBreak c || c == endMark

/-- Whether the character is a space or ends a line or the document. -/
def isSpaceOrEnd (c : Char) : Bool := c == ' ' || isBreakOrEnd c

/-- Whether the character is white space or ends a line or the document. -/
def isBlankOrEnd (c : Char) : Bool := c == '\t' || isSpaceOrEnd c

/-- Whether the character may occur in an anchor or in the name of a directive
or a tag handle. -/
def isWordChar (c : Char) : Bool := c.isAlphanum || c == '-' || c == '_'

/-- The text ahead and the place where it begins. -/
structure Cursor where
  ahead : List Char
  index : Nat := 0
  line : Nat := 0
  column : Nat := 0
  deriving Repr

namespace Cursor

/-- The character some way ahead. -/
def peekAt (c : Cursor) (n : Nat) : Char := c.ahead.getD n endMark

/-- The next character. -/
def peek (c : Cursor) : Char := c.ahead.headD endMark

/-- Move past one character. -/
def next (c : Cursor) : Cursor :=
  match c.ahead with
  | [] => c
  | ch :: rest =>
    if isBreak ch then ⟨rest, c.index + 1, c.line + 1, 0⟩
    else if ch == '\ufeff' then ⟨rest, c.index + 1, c.line, c.column⟩
    else ⟨rest, c.index + 1, c.line, c.column + 1⟩

/-- Move past a number of characters. -/
def skip : Nat → Cursor → Cursor
  | 0, c => c
  | n + 1, c => skip n c.next

/-- Move past the characters that belong to a class. -/
def skipWhile (p : Char → Bool) (c : Cursor) : Cursor :=
  skip (c.ahead.takeWhile p).length c

/-- The characters ahead that belong to a class, and the place after them. -/
def takeWhile (p : Char → Bool) (c : Cursor) : List Char × Cursor :=
  let run := c.ahead.takeWhile p
  (run, skip run.length c)

/-- Move past the end of a line, if it is next, and keep what it counts as. -/
def lineBreak (c : Cursor) : List Char × Cursor :=
  let ch := c.peek
  if ch == '\n' || ch == '\x85' then (['\n'], c.next)
  else if isBreak ch then ([ch], c.next)
  else ([], c)

/-- Whether a document separator is next: three hyphens or three points with
white space after them. -/
def atSeparator (c : Cursor) : Bool :=
  let mark := c.ahead.take 3
  (mark == ['-', '-', '-'] || mark == ['.', '.', '.']) && isBlankOrEnd (c.peekAt 3)

/-- Move past the rest of a line that may hold a comment and nothing else. -/
def ignoredLine (c : Cursor) : Except Error Cursor :=
  let c := c.skipWhile (· == ' ')
  let c := if c.peek == '#' then c.skipWhile (!isBreakOrEnd ·) else c
  if isBreakOrEnd c.peek then .ok c.lineBreak.2 else .error .malformed

end Cursor

end Montage.Yaml
