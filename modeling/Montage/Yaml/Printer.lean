import Montage.Text.Quoted
import Montage.Value.Text
import Montage.Yaml.Tag

/-!
# Writing YAML documents

The text of a value as a YAML document in block style.  A text is written plain
if that reads back as the same text, otherwise between single quotes, and
between double quotes if it holds characters beyond printable ASCII.  Lines are
broken at single spaces once they pass the eightieth column.
-/

namespace Montage.Yaml

/-- How texts may be written. -/
structure Spelling where
  plain : Bool
  singleQuoted : Bool
  multiline : Bool
  deriving Repr, DecidableEq

namespace Spelling

/-- The white space that may stand on either side of an indicator. -/
def isBlank (c : Char) : Bool := isBlankOrEnd c || c == '\r'

/-- Whether a character needs double quotes. -/
def isSpecial (c : Char) : Bool := !(c == '\n' || (32 ≤ c.toNat && c.toNat ≤ 126))

/-- Whether an indicator would be read at the start of a text. -/
def startsWithIndicator : List Char → Bool
  | [] => false
  | c :: rest =>
    let blankAfter := (rest.head?.map isBlank).getD true
    "#,[]\x7b\x7d&*!|>'\"%@`".toList.contains c ||
      ((c == '?' || c == ':' || c == '-') && blankAfter)

/-- Whether an indicator would be read inside a text: a colon before white
space, or a number sign after it.  `before` is the character to the left. -/
def holdsIndicator (before : Char) : List Char → Bool
  | [] => false
  | c :: rest =>
    (c == ':' && (rest.head?.map isBlank).getD true) || (c == '#' && isBlank before) ||
      holdsIndicator c rest

/-- Whether somewhere in a text one character of a class directly precedes one
of another. -/
def hasPair (p q : Char → Bool) : List Char → Bool
  | a :: b :: rest => (p a && q b) || hasPair p q (b :: rest)
  | _ => false

/-- How a text may be written. -/
def ofText (cs : List Char) : Spelling :=
  match cs with
  | [] => ⟨true, true, false⟩
  | first :: rest =>
    let last := cs.getLast?.getD first
    let isSpace (c : Char) : Bool := c == ' '
    let lines := cs.any isBreak
    let special := cs.any isSpecial || hasPair isSpace isBreak cs
    let breakSpace := hasPair isBreak isSpace cs
    let edges := isSpace first || isBreak first || isSpace last || isBreak last
    let marker := ['-', '-', '-'].isPrefixOf cs || ['.', '.', '.'].isPrefixOf cs
    { plain := !(edges || breakSpace || special || lines || marker || startsWithIndicator cs ||
        holdsIndicator first rest)
      singleQuoted := !(breakSpace || special)
      multiline := lines }

end Spelling

/-- A document as far as it is written. -/
structure Page where
  /-- The characters, last first. -/
  written : List Char := []
  column : Nat := 0
  /-- Whether the last character is white space or an indicator that needs none
  after it. -/
  spaced : Bool := true
  /-- Whether only indentation and indicators stand on the line so far. -/
  indented : Bool := true

namespace Page

/-- The column from which on lines are broken. -/
def width : Nat := 80

/-- The number of columns by which an inner block is moved to the right. -/
def stepWidth : Nat := 2

/-- Write characters on the line. -/
def put (p : Page) (cs : List Char) : Page :=
  { p with written := cs.reverse ++ p.written, column := p.column + cs.length }

/-- Begin a new line. -/
def newLine (p : Page) : Page :=
  { p with written := '\n' :: p.written, column := 0, spaced := true, indented := true }

/-- Write an indicator, after a space if it needs one. -/
def indicator (p : Page) (mark : String) (needsSpace : Bool) (keepsIndent : Bool) : Page :=
  let cs := if p.spaced || !needsSpace then mark.toList else ' ' :: mark.toList
  { p.put cs with spaced := false, indented := p.indented && keepsIndent }

/-- Go to a column, on a new line unless the line so far allows it. -/
def indentTo (p : Page) (indent : Nat) : Page :=
  let isFull := p.column > indent || (p.column == indent && !p.spaced)
  let p := if !p.indented || isFull then p.newLine else p
  if p.column < indent then
    { p.put (List.replicate (indent - p.column) ' ') with spaced := true }
  else p

/-- Break the line inside a text. -/
def breakText (p : Page) (indent : Nat) : Page :=
  { p.indentTo indent with spaced := false, indented := false }

/-- Characters that go together in a text: a run of spaces, a run of line ends
or a run of others. -/
def pieces : List Char → List (List Char)
  | [] => []
  | c :: rest =>
    let kind (d : Char) : Nat := if d == ' ' then 0 else if isBreak d then 1 else 2
    match pieces rest with
    | (d :: more) :: others =>
      if kind c == kind d then (c :: d :: more) :: others else [c] :: (d :: more) :: others
    | others => [c] :: others

/-- Write the pieces of a plain text. -/
def plainPieces (p : Page) (indent : Nat) (split : Bool) : List (List Char) → Page
  | [] => p
  | piece :: rest =>
    if piece == [' '] && split && p.column > width then
      plainPieces (p.breakText indent) indent split rest
    else plainPieces (p.put piece) indent split rest

/-- Write a text without quotes. -/
def plain (p : Page) (indent : Nat) (split : Bool) (cs : List Char) : Page :=
  if cs.isEmpty then p
  else
    let p := if p.spaced then p else p.put [' ']
    { p with spaced := false, indented := false }.plainPieces indent split (pieces cs)

/-- Write line ends inside quotes: one is written twice, so that it is not read
as a space. -/
def quotedBreaks (p : Page) (indent : Nat) (breaks : List Char) : Page :=
  let p := if breaks.head? == some '\n' then p.newLine else p
  (breaks.foldl (fun p _ => p.newLine) p).indentTo indent

/-- Write the pieces of a text between single quotes.  The first and the last
piece are never replaced by a line end. -/
def singlePieces (p : Page) (indent : Nat) (split first : Bool) : List (List Char) → Page
  | [] => p
  | piece :: rest =>
    let next :=
      if piece == [' '] && split && !first && !rest.isEmpty && p.column > width then
        p.indentTo indent
      else if piece.any isBreak then p.quotedBreaks indent piece
      else p.put (piece.flatMap fun c => if c == '\'' then ['\'', '\''] else [c])
    singlePieces next indent split false rest

/-- Write a text between single quotes. -/
def singleQuoted (p : Page) (indent : Nat) (split : Bool) (cs : List Char) : Page :=
  let p := (p.indicator "'" true false).singlePieces indent split true (pieces cs)
  p.indicator "'" false false

/-- The character that stands for another behind a backslash. -/
def escapeLetter? (c : Char) : Option Char :=
  [('\x00', '0'), ('\x07', 'a'), ('\x08', 'b'), ('\t', 't'), ('\n', 'n'), ('\x0b', 'v'),
    ('\x0c', 'f'),
    ('\r', 'r'), ('\x1b', 'e'), ('"', '"'), ('\\', '\\'), ('\x85', 'N'), ('\xa0', '_'),
    ('\u2028', 'L'), ('\u2029', 'P')].lookup c

/-- A number in capital hexadecimal digits. -/
def capitalHex (digits n : Nat) : List Char := (Text.hexPadded digits n).map Char.toUpper

/-- A code point between double quotes. -/
def escape (n : Nat) : List Char :=
  if Text.isHalf n then '\\' :: 'u' :: capitalHex 4 n
  else
    match escapeLetter? (Char.ofNat n) with
    | some letter => ['\\', letter]
    | none =>
      if 32 ≤ n && n ≤ 126 then [Char.ofNat n]
      else if n ≤ 0xff then '\\' :: 'x' :: capitalHex 2 n
      else if n ≤ 0xffff then '\\' :: 'u' :: capitalHex 4 n
      else '\\' :: 'U' :: capitalHex 8 n

/-- Whether the code point stands for itself between double quotes. -/
def standsAlone (n : Nat) : Bool := escape n == [Char.ofNat n]

/-- Write the code points of a text between double quotes.  `pending` holds, last
first, the characters that stand for themselves and are not written yet; `inner`
is set after the first code point.  The line is broken before a space or after an
escaped code point, never beside either quote. -/
def doublePoints (p : Page) (indent : Nat) (split inner : Bool) (pending : List Char) :
    List Nat → Page
  | [] => p.put pending.reverse
  | n :: rest =>
    let c := Char.ofNat n
    let breaks := split && inner && !rest.isEmpty
    if standsAlone n then
      if breaks && (c == ' ' || pending.isEmpty) && p.column + pending.length > width then
        let p := (p.put (pending.reverse ++ ['\\'])).breakText indent
        let p := if c == ' ' then p.put ['\\'] else p
        doublePoints p indent split true [c] rest
      else doublePoints p indent split true (c :: pending) rest
    else
      let p := p.put (pending.reverse ++ escape n)
      if breaks && p.column > width + 1 then
        let p := (p.put ['\\']).breakText indent
        let p := if rest.head? == some 32 then p.put ['\\'] else p
        doublePoints p indent split true [] rest
      else doublePoints p indent split true [] rest

/-- Write a text between double quotes. -/
def doubleQuoted (p : Page) (indent : Nat) (split : Bool) (cs : List Char) : Page :=
  let p := (p.indicator "\"" true false).doublePoints indent split false []
    (Text.codePoints cs)
  p.indicator "\"" false false

/-- Write a text, as a key or as a value. -/
def text (p : Page) (indent : Nat) (isKey : Bool) (s : String) : Page :=
  let cs := s.toList
  let spelling := Spelling.ofText cs
  if spelling.plain && Tag.ofPlain s == .text then p.plain indent (!isKey) cs
  else if spelling.singleQuoted && !(isKey && spelling.multiline) then
    p.singleQuoted indent (!isKey) cs
  else p.doubleQuoted indent (!isKey) cs

/-- The text of a double; one without a point gets one before its exponent. -/
def floatText (x : Float) : String :=
  if x.isNaN then ".nan"
  else if x.isInf then (if x < 0.0 then "-.inf" else ".inf")
  else
    let cs := (Decimal.fullText x).toList
    if !cs.contains '.' && cs.contains 'e' then
      String.ofList (cs.takeWhile (· != 'e') ++ ['.', '0'] ++ cs.dropWhile (· != 'e'))
    else String.ofList cs

/-- Whether a key is short enough to stand on one line with its value. -/
def isSimpleKey (s : String) : Bool :=
  !s.isEmpty && s.length + 5 < 128 && !(Spelling.ofText s.toList).multiline

mutual

/-- Write a value.  `indent` is the column of the block around it; `inMapping`
is set for the value of an entry. -/
def value (p : Page) (indent : Option Nat) (inMapping : Bool) : Value → Page
  | .null => scalar p "null"
  | .bool b => scalar p (if b then "true" else "false")
  | .number (.int n) => scalar p (toString n)
  | .number (.float x) => scalar p (floatText x)
  | .text s => p.text (inner indent) false s
  | .list [] => p.emptyCollection "[" "]"
  | .list list =>
    p.items (if inMapping && !p.indented then indent.getD 0 else block indent) list
  | .map [] => p.emptyCollection "\x7b" "\x7d"
  | .map list => p.entries (block indent) list
  | .bytes _ | .date _ | .moment _ | .pair _ _ | .set _ => scalar p "null"
where
  /-- The column of a scalar that runs over several lines. -/
  inner : Option Nat → Nat
    | none => stepWidth
    | some n => n + stepWidth
  /-- The column of a block. -/
  block : Option Nat → Nat
    | none => 0
    | some n => n + stepWidth
  /-- Write a scalar that needs no quotes. -/
  scalar (p : Page) (s : String) : Page := p.plain (inner indent) true s.toList

/-- Write the items of a list. -/
def items (p : Page) (indent : Nat) : List Value → Page
  | [] => p
  | item :: rest =>
    let p := (p.indentTo indent).indicator "-" true true
    (p.value (some indent) false item).items indent rest

/-- Write the entries of a mapping. -/
def entries (p : Page) (indent : Nat) : List (Value × Value) → Page
  | [] => p
  | (key, v) :: rest =>
    let name := key.plainText
    let p := p.indentTo indent
    let p :=
      if isSimpleKey name then
        (p.text (indent + stepWidth) true name).indicator ":" false false
      else
        let p := (p.indicator "?" true true).text (indent + stepWidth) false name
        (p.indentTo indent).indicator ":" true true
    (p.value (some indent) true v).entries indent rest

/-- Write an empty collection. -/
def emptyCollection (p : Page) (opening closing : String) : Page :=
  ({ p.indicator opening true false with spaced := true }).indicator closing false false

end

end Page

/-- The document of a value. -/
def print (v : Value) : String :=
  String.ofList (((({} : Page).value none false v).indentTo 0).written.reverse)

end Montage.Yaml
