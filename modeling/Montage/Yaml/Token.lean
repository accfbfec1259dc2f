import Montage.Decimal.Numeral
import Montage.Yaml.Scalar

/-!
# Tokens of a YAML document

The tokens of a document and how its text is cut into them.  Block structure
comes from indentation: a deeper column opens a block, a return to the left
closes blocks.  A simple key shows itself only by the colon after it, so the
places where one may have begun are kept until they are confirmed or out of
reach.
-/

namespace Montage.Yaml

/-- A token. -/
inductive Token
  | versionDirective (major : Nat)
  | tagDirective (handle stem : String)
  | otherDirective
  | documentStart
  | documentEnd
  | blockSequenceStart
  | blockMappingStart
  | blockEnd
  | flowSequenceStart
  | flowSequenceEnd
  | flowMappingStart
  | flowMappingEnd
  | blockItem
  | flowComma
  | key
  | value
  | alias (name : String)
  | anchor (name : String)
  /-- A tag: its handle, unless it is written in full, and the rest. -/
  | tag (handle : Option String) (rest : String)
  | scalar (text : String) (plain : Bool)
  | streamEnd
  deriving Repr, DecidableEq

/-- A place where a simple key may have begun. -/
structure SimpleKey where
  /-- The number of tokens before it. -/
  position : Nat
  /-- The key has to follow, because a block of this column is open. -/
  required : Bool
  index : Nat
  line : Nat
  column : Nat
  deriving Repr

/-- The state of cutting a text into tokens. -/
structure Scanner where
  cursor : Cursor
  /-- The tokens so far, last first. -/
  tokens : List Token := []
  count : Nat := 0
  /-- The number of flow collections that are open. -/
  flow : Nat := 0
  /-- The column of the innermost block, and those around it. -/
  indent : Int := -1
  outer : List Int := []
  keyAllowed : Bool := true
  /-- Places of possible simple keys by the number of flow collections around
  them. -/
  keys : List (Nat × SimpleKey) := []

namespace Scanner

/-- The longest distance between a simple key and its colon. -/
def keyReach : Nat := 1024

/-- Add a token. -/
def push (s : Scanner) (token : Token) : Scanner :=
  { s with tokens := token :: s.tokens, count := s.count + 1 }

/-- Insert a token after the first `position` tokens. -/
def insertAt (s : Scanner) (position : Nat) (token : Token) : Scanner :=
  let later := s.count - position
  { s with tokens := s.tokens.take later ++ token :: s.tokens.drop later, count := s.count + 1 }

/-- Move past a number of characters. -/
def skip (s : Scanner) (n : Nat) : Scanner := { s with cursor := s.cursor.skip n }

/-- Give up the possible key of the innermost collection. -/
def dropKey (s : Scanner) : Except Error Scanner :=
  match s.keys.lookup s.flow with
  | some key =>
    if key.required then .error .malformed
    else .ok { s with keys := s.keys.filter fun k => k.1 != s.flow }
  | none => .ok s

/-- Note that a simple key may begin here. -/
def noteKey (s : Scanner) : Except Error Scanner := do
  if s.keyAllowed then
    let required := s.flow == 0 && s.indent == s.cursor.column
    let s ← s.dropKey
    let key : SimpleKey := ⟨s.count, required, s.cursor.index, s.cursor.line, s.cursor.column⟩
    return { s with keys := (s.flow, key) :: s.keys }
  else return s

/-- Whether a possible key is out of reach: on another line or too far back. -/
def isStale (s : Scanner) (key : SimpleKey) : Bool :=
  key.line != s.cursor.line || s.cursor.index - key.index > keyReach

/-- Give up the possible keys that are out of reach. -/
def dropStaleKeys (s : Scanner) : Except Error Scanner :=
  if s.keys.any fun k => s.isStale k.2 && k.2.required then .error .malformed
  else .ok { s with keys := s.keys.filter fun k => !s.isStale k.2 }

/-- The tokens that stand fast: those before the first place at which a key may
still be confirmed. -/
def settled (s : Scanner) : List Token :=
  let places := (s.keys.filter fun k => !s.isStale k.2).map fun k => k.2.position
  s.tokens.reverse.take (places.foldl min s.count)

/-- Close the blocks to the right of a column. -/
def closeBlocks (column : Int) : List Int → Scanner → Scanner
  | [], s => s
  | around :: outer, s =>
    if column < s.indent then
      closeBlocks column outer { s.push .blockEnd with indent := around, outer := outer }
    else s

/-- Close the blocks to the right of a column, unless a flow collection is
open. -/
def unwind (column : Int) (s : Scanner) : Scanner :=
  if s.flow == 0 then closeBlocks column s.outer s else s

/-- Open a block at a column, if that lies to the right of the innermost one. -/
def openBlock (s : Scanner) (column : Int) : Option Scanner :=
  if s.indent < column then some { s with outer := s.indent :: s.outer, indent := column } else none

/-- Open a block here and add its first token, if that lies to the right of the
innermost block. -/
def openBlockWith (s : Scanner) (token : Token) : Scanner :=
  match s.openBlock s.cursor.column with
  | some s => s.push token
  | none => s

/-- Move past white space, line ends and comments.  A new line outside flow
collections allows a key. -/
def toNextToken : Nat → Scanner → Scanner
  | 0, s => s
  | fuel + 1, s =>
    let c := s.cursor.skipWhile (· == ' ')
    let c := if c.peek == '#' then c.skipWhile (!isBreakOrEnd ·) else c
    if isBreak c.peek then
      toNextToken fuel
        { s with cursor := c.lineBreak.2, keyAllowed := s.keyAllowed || s.flow == 0 }
    else { s with cursor := c }

/-! ## Directives, anchors and tags -/

/-- The digits of a version number. -/
def versionNumber (c : Cursor) : Except Error (Nat × Cursor) := do
  let (digits, c) := c.takeWhile Char.isDigit
  if digits.isEmpty then throw .malformed
  match Decimal.readInteger 10 digits with
  | .ok n => return (n.toNat, c)
  | .error _ => throw (.fault .badValue)

/-- The characters of a tag beside letters and digits. -/
def tagChars : List Char := "-;/?:@&=+$,_.!~*'()[]".toList

/-- The bytes of a text, if they are one in UTF-8. -/
def utf8Text? (bytes : List UInt8) : Option (List Char) :=
  (String.fromUTF8? ⟨bytes.toArray⟩).map String.toList

/-- A run of escaped bytes, each a percent sign and two hexadecimal digits. -/
def escapedBytes : Nat → Cursor → Except Error (List UInt8 × Cursor)
  | 0, c => .ok ([], c)
  | fuel + 1, c =>
    if c.peek != '%' then .ok ([], c)
    else
      match hexValue? 2 0 c.next.ahead with
      | none => .error .malformed
      | some n => do
        let (rest, c) ← escapedBytes fuel (c.skip 3)
        return (UInt8.ofNat n :: rest, c)

/-- The text of a tag. -/
def tagText : Nat → Cursor → Except Error (List Char × Cursor)
  | 0, c => .ok ([], c)
  | fuel + 1, c => do
    let (run, c) := c.takeWhile fun ch => ch.isAlphanum || tagChars.contains ch
    if c.peek == '%' then
      let (bytes, c) ← escapedBytes (c.ahead.length + 1) c
      match utf8Text? bytes with
      | none => throw .malformed
      | some text =>
        let (rest, c) ← tagText fuel c
        return (run ++ text ++ rest, c)
    else return (run, c)

/-- The text of a tag, which has to begin here. -/
def someTagText (c : Cursor) : Except Error (String × Cursor) := do
  let (text, after) ← tagText (c.ahead.length + 1) c
  if after.index == c.index then throw .malformed
  return (String.ofList text, after)

/-- The handle of a tag: an exclamation mark, or a word between two of them. -/
def tagHandle (c : Cursor) : Except Error (String × Cursor) :=
  if c.peek != '!' then .error .malformed
  else if c.peekAt 1 == ' ' then .ok ("!", c.next)
  else
    let (word, after) := c.next.takeWhile isWordChar
    if after.peek != '!' then .error .malformed
    else .ok (String.ofList ('!' :: word ++ ['!']), after.next)

/-- A directive; the cursor stands before the percent sign. -/
def directive (c : Cursor) : Except Error (Token × Cursor) := do
  let (name, c) := c.next.takeWhile isWordChar
  if name.isEmpty || !isSpaceOrEnd c.peek then throw .malformed
  let toArgument (c : Cursor) : Cursor := c.skipWhile (· == ' ')
  if name == "YAML".toList then
    let (major, c) ← versionNumber (toArgument c)
    if c.peek != '.' then throw .malformed
    let (_, c) ← versionNumber c.next
    if !isSpaceOrEnd c.peek then throw .malformed
    return (.versionDirective major, ← c.ignoredLine)
  else if name == "TAG".toList then
    let (handle, c) ← tagHandle (toArgument c)
    if c.peek != ' ' then throw .malformed
    let (stem, c) ← someTagText (toArgument c)
    if !isSpaceOrEnd c.peek then throw .malformed
    return (.tagDirective handle stem, ← c.ignoredLine)
  else
    return (.otherDirective, ← (c.skipWhile (!isBreakOrEnd ·)).ignoredLine)

/-- The name of an anchor; the cursor stands before its indicator. -/
def anchorName (c : Cursor) : Except Error (String × Cursor) :=
  let (name, c) := c.next.takeWhile isWordChar
  if name.isEmpty then .error .malformed
  else if isBlankOrEnd c.peek || "?:,]\x7d%@`".toList.contains c.peek then
    .ok (String.ofList name, c)
  else .error .malformed

/-- A tag; the cursor stands before its exclamation mark. -/
def tag (c : Cursor) : Except Error (Token × Cursor) := do
  let ch := c.peekAt 1
  let (token, c) ←
    if ch == '<' then
      let (text, c) ← someTagText (c.skip 2)
      if c.peek != '>' then throw .malformed
      pure (Token.tag none text, c.next)
    else if isBlankOrEnd ch then pure (Token.tag none "!", c.next)
    else
      let body := c.next.ahead.takeWhile (!isSpaceOrEnd ·)
      let (handle, c) ← if body.contains '!' then tagHandle c else pure ("!", c.next)
      let (text, c) ← someTagText c
      pure (Token.tag (some handle) text, c)
  if isSpaceOrEnd c.peek then return (token, c) else throw .malformed

/-! ## One token after the other -/

/-- End the document text: close all blocks and give up the possible key. -/
def closeAll (s : Scanner) : Except Error Scanner := do
  let s ← (s.unwind (-1)).dropKey
  return { s with keyAllowed := false }

/-- A token that opens a flow collection. -/
def openFlow (s : Scanner) (token : Token) : Except Error Scanner := do
  let s ← s.noteKey
  return ({ s with flow := s.flow + 1, keyAllowed := true }.skip 1).push token

/-- A token that closes a flow collection. -/
def closeFlow (s : Scanner) (token : Token) : Except Error Scanner := do
  let s ← s.dropKey
  return ({ s with flow := s.flow - 1, keyAllowed := false }.skip 1).push token

/-- A comma in a flow collection. -/
def comma (s : Scanner) : Except Error Scanner := do
  let s ← { s with keyAllowed := true }.dropKey
  return (s.skip 1).push .flowComma

/-- A hyphen before an item. -/
def item (s : Scanner) : Except Error Scanner := do
  if s.flow == 0 && !s.keyAllowed then throw .malformed
  let s := if s.flow == 0 then s.openBlockWith .blockSequenceStart else s
  let s ← { s with keyAllowed := true }.dropKey
  return (s.skip 1).push .blockItem

/-- A question mark before a key. -/
def explicitKey (s : Scanner) : Except Error Scanner := do
  if s.flow == 0 && !s.keyAllowed then throw .malformed
  let s := if s.flow == 0 then s.openBlockWith .blockMappingStart else s
  let s ← { s with keyAllowed := s.flow == 0 }.dropKey
  return (s.skip 1).push .key

/-- Confirm a simple key: its token goes before it, and before that the token of
the mapping that it begins. -/
def confirmKey (s : Scanner) (key : SimpleKey) : Scanner :=
  let s := { s with keys := s.keys.filter (fun k => k.1 != s.flow), keyAllowed := false }
  let s := s.insertAt key.position .key
  if s.flow == 0 then
    match s.openBlock key.column with
    | some s => s.insertAt key.position .blockMappingStart
    | none => s
  else s

/-- A colon before a value. -/
def valueMark (s : Scanner) : Except Error Scanner := do
  match s.keys.lookup s.flow with
  | some key => return ((s.confirmKey key).skip 1).push .value
  | none =>
    if s.flow == 0 && !s.keyAllowed then throw .malformed
    let s := if s.flow == 0 then s.openBlockWith .blockMappingStart else s
    let s ← { s with keyAllowed := s.flow == 0 }.dropKey
    return (s.skip 1).push .value

/-- A token that may begin a simple key and after which none may begin. -/
def keyPart (s : Scanner) (read : Cursor → Except Error (Token × Cursor)) :
    Except Error Scanner := do
  let s ← s.noteKey
  let (token, c) ← read s.cursor
  return { s with cursor := c, keyAllowed := false }.push token

/-- A block scalar. -/
def block (s : Scanner) (folded : Bool) : Except Error Scanner := do
  let s ← { s with keyAllowed := true }.dropKey
  let (text, c) ← blockScalar folded s.indent s.cursor
  return { s with cursor := c }.push (.scalar (String.ofList text) false)

/-- A plain scalar.  A key may follow it only if it was left at a line end. -/
def plain (s : Scanner) : Except Error Scanner := do
  let s ← s.noteKey
  let (text, ended, c) := plainScalar (s.flow != 0) (s.indent + 1) s.cursor
  return { s with cursor := c, keyAllowed := ended }.push (.scalar (String.ofList text) true)

/-- Whether a plain scalar can begin here. -/
def startsPlain (s : Scanner) : Bool :=
  let ch := s.cursor.peek
  !(isBlankOrEnd ch || "-?:,[]\x7b\x7d#&*!|>'\"%@`".toList.contains ch) ||
    (!isBlankOrEnd (s.cursor.peekAt 1) &&
      (ch == '-' || (s.flow == 0 && (ch == '?' || ch == ':'))))

/-- The token that begins here. -/
def step (s : Scanner) : Except Error Scanner := do
  let ch := s.cursor.peek
  let blankAfter := isBlankOrEnd (s.cursor.peekAt 1)
  let quoted (double : Bool) (c : Cursor) : Except Error (Token × Cursor) := do
    let (text, c) ← quotedScalar double c
    return (.scalar (String.ofList text) false, c)
  let named (make : String → Token) (c : Cursor) : Except Error (Token × Cursor) := do
    let (name, c) ← anchorName c
    return (make name, c)
  if ch == endMark then
    let s ← s.closeAll
    return { s with keys := [] }.push .streamEnd
  else if ch == '%' && s.cursor.column == 0 then
    let s ← s.closeAll
    let (token, c) ← directive s.cursor
    return { s with cursor := c }.push token
  else if s.cursor.column == 0 && s.cursor.atSeparator then
    let s ← s.closeAll
    return (s.skip 3).push (if ch == '-' then .documentStart else .documentEnd)
  else if ch == '[' then s.openFlow .flowSequenceStart
  else if ch == '\x7b' then s.openFlow .flowMappingStart
  else if ch == ']' then s.closeFlow .flowSequenceEnd
  else if ch == '\x7d' then s.closeFlow .flowMappingEnd
  else if ch == ',' then s.comma
  else if ch == '-' && blankAfter then s.item
  else if ch == '?' && (s.flow != 0 || blankAfter) then s.explicitKey
  else if ch == ':' && (s.flow != 0 || blankAfter) then s.valueMark
  else if ch == '*' then s.keyPart (named .alias)
  else if ch == '&' then s.keyPart (named .anchor)
  else if ch == '!' then s.keyPart tag
  else if ch == '|' && s.flow == 0 then s.block false
  else if ch == '>' && s.flow == 0 then s.block true
  else if ch == '\'' then s.keyPart (quoted false)
  else if ch == '"' then s.keyPart (quoted true)
  else if s.startsPlain then s.plain
  else throw .malformed

/-- Move to the next token and take it. -/
def advance (s : Scanner) : Except Error Scanner := do
  let s ← (s.toNextToken (s.cursor.ahead.length + 1)).dropStaleKeys
  (s.unwind s.cursor.column).step

/-- Take tokens up to the end of the text.  With a failure come the tokens that
stood fast before it. -/
def run : Nat → Scanner → List Token × Option Error
  | 0, s => (s.tokens.reverse, some .malformed)
  | fuel + 1, s =>
    match s.advance with
    | .error failure => (s.settled, some failure)
    | .ok s =>
      if s.tokens.head? == some .streamEnd then (s.tokens.reverse, none) else run fuel s

end Scanner

/-- The tokens of a text, up to the first failure.  A byte order mark at its
start counts for nothing. -/
def tokens (text : List Char) : List Token × Option Error :=
  let cursor : Cursor := ⟨text, 0, 0, 0⟩
  let cursor := if cursor.peek == '\ufeff' then cursor.next else cursor
  Scanner.run (text.length + 2) { cursor }

end Montage.Yaml
