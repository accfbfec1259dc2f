import Montage.Value.Basic

/-!
# Reading JSON

A reader for JSON texts.  Beyond the standard it accepts the words `NaN`,
`Infinity` and `-Infinity`; of several entries with one name the last counts.  A
refused text is reported with the place where reading stopped, by line, column
and character.
-/

namespace Montage.Json

/-- What is wrong with a text. -/
inductive Problem
  | byteOrderMark
  | expectsValue
  | expectsName
  | expectsColon
  | expectsComma
  | unterminated
  | controlCharacter
  | badEscape
  | badUnicodeEscape
  | extraData
  /-- A whole number has too many digits; this is reported without a place. -/
  | numberTooLong (digits : Nat)
  /-- Lists and mappings are nested deeper than the runtime follows.  This is no fault
  of the text, and it is not reported but ends the run. -/
  | tooDeep
  deriving Repr, DecidableEq

/-- A problem and the number of characters from its place to the end of the
text. -/
structure Error where
  problem : Problem
  remaining : Nat
  deriving Repr, DecidableEq

/-- The white space between the parts of a text. -/
def isSpace (c : Char) : Bool := c == ' ' || c == '\t' || c == '\n' || c == '\r'

/-- Skip white space. -/
def skip (cs : List Char) : List Char := cs.dropWhile isSpace

/-- Four hexadecimal digits at the start of a text. -/
def fourHex? : List Char → Option (Nat × List Char)
  | a :: b :: c :: d :: rest => do
    let a ← Text.hexDigit? a
    let b ← Text.hexDigit? b
    let c ← Text.hexDigit? c
    let d ← Text.hexDigit? d
    some (((a * 16 + b) * 16 + c) * 16 + d, rest)
  | _ => none

/-- The character behind a one-letter escape. -/
def escape? (c : Char) : Option Char :=
  if c == '"' || c == '\\' || c == '/' then some c
  else if c == 'b' then some '\x08'
  else if c == 'f' then some '\x0c'
  else if c == 'n' then some '\n'
  else if c == 'r' then some '\r'
  else if c == 't' then some '\t'
  else none

/-- Whether the number is the first half of a surrogate pair. -/
def isHighHalf (n : Nat) : Bool := 0xd800 ≤ n && n < 0xdc00

/-- Whether the number is the second half of a surrogate pair. -/
def isLowHalf (n : Nat) : Bool := 0xdc00 ≤ n && n < 0xe000

/-- The code point written as `\u` and four digits, or as two such halves; `cs`
stands after the `u`. -/
def unicodeEscape (cs : List Char) : Except Error (Nat × List Char) :=
  if cs.length ≤ 4 then .error ⟨.badUnicodeEscape, cs.length + 1⟩
  else
    match fourHex? cs with
    | none => .error ⟨.badUnicodeEscape, cs.length + 1⟩
    | some (high, rest) =>
      match rest with
      | '\\' :: 'u' :: second =>
        if isHighHalf high && second.length > 4 then
          match fourHex? second with
          | none => .error ⟨.badUnicodeEscape, second.length + 1⟩
          | some (low, rest') =>
            if isLowHalf low then
              .ok (0x10000 + (high - 0xd800) * 0x400 + (low - 0xdc00), rest')
            else .ok (high, rest)
        else .ok (high, rest)
      | rest => .ok (high, rest)

/-- The characters of a string up to its closing quote.  `start` is what
remained at the opening quote, `done` what has been read, last first. -/
def stringBody (start : Nat) : Nat → List Char → List Char → Except Error (List Char × List Char)
  | 0, _, cs => .error ⟨.unterminated, cs.length⟩
  | fuel + 1, done, cs =>
    match cs with
    | [] => .error ⟨.unterminated, start⟩
    | '"' :: rest => .ok (done.reverse, rest)
    | ['\\'] => .error ⟨.unterminated, start⟩
    | '\\' :: 'u' :: rest =>
      match unicodeEscape rest with
      | .error e => .error e
      | .ok (n, rest) => stringBody start fuel ((Text.ofCodePoint n).reverse ++ done) rest
    | '\\' :: c :: rest =>
      match escape? c with
      | some c => stringBody start fuel (c :: done) rest
      | none => .error ⟨.badEscape, rest.length + 2⟩
    | c :: rest =>
      if c.toNat ≤ 0x1f then .error ⟨.controlCharacter, rest.length + 1⟩
      else stringBody start fuel (c :: done) rest

/-- A string; `cs` stands after its opening quote. -/
def string (cs : List Char) : Except Error (List Char × List Char) :=
  stringBody (cs.length + 1) (cs.length + 1) [] cs

/-- Split a number at the start of a text into its whole part, its fraction with
the point, and its exponent with the letter. -/
def numberParts? (cs : List Char) :
    Option (List Char × List Char × List Char × List Char) :=
  let (sign, body) := match cs with
    | '-' :: rest => (['-'], rest)
    | cs => ([], cs)
  let whole := match body with
    | '0' :: _ => ['0']
    | body => body.takeWhile Char.isDigit
  if whole.isEmpty then none
  else
    let rest := body.drop whole.length
    let fraction := match rest with
      | '.' :: more =>
        let digits := more.takeWhile Char.isDigit
        if digits.isEmpty then [] else '.' :: digits
      | _ => []
    let rest := rest.drop fraction.length
    let exponent := match rest with
      | e :: more =>
        if e == 'e' || e == 'E' then
          let (sign, more) := match more with
            | '-' :: more => (['-'], more)
            | '+' :: more => (['+'], more)
            | more => ([], more)
          let digits := more.takeWhile Char.isDigit
          if digits.isEmpty then [] else e :: sign ++ digits
        else []
      | [] => []
    some (sign ++ whole, fraction, exponent, rest.drop exponent.length)

/-- A number: whole unless it has a fraction or an exponent. -/
def number (cs : List Char) : Except Error (Value × List Char) :=
  match numberParts? cs with
  | none => .error ⟨.expectsValue, cs.length⟩
  | some (whole, fraction, exponent, rest) =>
    if fraction.isEmpty && exponent.isEmpty then
      match Decimal.readInteger 10 whole with
      | .ok n => .ok (.number (.int n), rest)
      | .error (.tooLong digits) => .error ⟨.numberTooLong digits, rest.length⟩
      | .error .malformed => .error ⟨.expectsValue, cs.length⟩
    else
      match Decimal.readFloatChars? (whole ++ fraction ++ exponent) with
      | some x => .ok (.number (.float x), rest)
      | none => .error ⟨.expectsValue, cs.length⟩

/-- The words that stand for values. -/
def words : List (List Char × Value) :=
  [("null".toList, .null), ("true".toList, .bool true), ("false".toList, .bool false),
    ("NaN".toList, .number (.float (0.0 / 0.0))), ("Infinity".toList, .number (.float (1.0 / 0.0))),
    ("-Infinity".toList, .number (.float (-1.0 / 0.0)))]

/-- A word at the start of a text. -/
def word? (cs : List Char) : Option (Value × List Char) :=
  (words.find? fun w => w.1.isPrefixOf cs).map fun w => (w.2, cs.drop w.1.length)

mutual

/-- A value at the start of a text, in which lists and mappings are nested in at most
so many levels. -/
def value : Nat → Nat → List Char → Except Error (Value × List Char)
  | 0, _, cs => .error ⟨.expectsValue, cs.length⟩
  | fuel + 1, levels, cs =>
    match cs with
    | '"' :: rest =>
      match string rest with
      | .ok (s, rest) => .ok (.text (String.ofList s), rest)
      | .error e => .error e
    | '[' :: rest =>
      match levels with
      | 0 => .error ⟨.tooDeep, cs.length⟩
      | levels + 1 =>
        match skip rest with
        | ']' :: rest => .ok (.list [], rest)
        | rest =>
          match items fuel levels rest with
          | .ok (list, rest) => .ok (.list list, rest)
          | .error e => .error e
    | '\x7b' :: rest =>
      match levels with
      | 0 => .error ⟨.tooDeep, cs.length⟩
      | levels + 1 =>
        match skip rest with
        | '\x7d' :: rest => .ok (.map [], rest)
        | rest =>
          match entries fuel levels [] rest with
          | .ok (map, rest) => .ok (.map map, rest)
          | .error e => .error e
    | cs =>
      match word? cs with
      | some found => .ok found
      | none => number cs

/-- The items of a list up to its closing bracket. -/
def items : Nat → Nat → List Char → Except Error (List Value × List Char)
  | 0, _, cs => .error ⟨.expectsValue, cs.length⟩
  | fuel + 1, levels, cs =>
    match value fuel levels cs with
    | .error e => .error e
    | .ok (v, rest) =>
      match skip rest with
      | ']' :: rest => .ok ([v], rest)
      | ',' :: rest =>
        match items fuel levels (skip rest) with
        | .ok (list, rest) => .ok (v :: list, rest)
        | .error e => .error e
      | rest => .error ⟨.expectsComma, rest.length⟩

/-- The entries of a mapping up to its closing brace, added to those read
before. -/
def entries : Nat → Nat → List (Value × Value) → List Char →
    Except Error (List (Value × Value) × List Char)
  | 0, _, _, cs => .error ⟨.expectsName, cs.length⟩
  | fuel + 1, levels, before, cs =>
    match cs with
    | '"' :: rest =>
      match string rest with
      | .error e => .error e
      | .ok (name, rest) =>
        match skip rest with
        | ':' :: rest =>
          match value fuel levels (skip rest) with
          | .error e => .error e
          | .ok (v, rest) =>
            let map := Value.put before (.text (String.ofList name)) v
            match skip rest with
            | '\x7d' :: rest => .ok (map, rest)
            | ',' :: rest => entries fuel levels map (skip rest)
            | rest => .error ⟨.expectsComma, rest.length⟩
        | rest => .error ⟨.expectsColon, rest.length⟩
    | cs => .error ⟨.expectsName, cs.length⟩

end

/-- Read a whole text. -/
def readChars (cs : List Char) : Except Error Value :=
  match cs with
  | '\ufeff' :: _ => .error ⟨.byteOrderMark, cs.length⟩
  | _ =>
    match value (2 * cs.length + 2) callLimit (skip cs) with
    | .error e => .error e
    | .ok (v, rest) =>
      let rest := skip rest
      if rest.isEmpty then .ok v else .error ⟨.extraData, rest.length⟩

/-- Read a whole text. -/
def read (s : String) : Except Error Value := readChars s.toList

/-- The words for a problem. -/
def Problem.message : Problem → String
  | byteOrderMark => "Unexpected UTF-8 BOM (decode using utf-8-sig)"
  | expectsValue => "Expecting value"
  | expectsName => "Expecting property name enclosed in double quotes"
  | expectsColon => "Expecting ':' delimiter"
  | expectsComma => "Expecting ',' delimiter"
  | unterminated => "Unterminated string starting at"
  | controlCharacter => "Invalid control character at"
  | badEscape => "Invalid \\escape"
  | badUnicodeEscape => "Invalid \\uXXXX escape"
  | extraData => "Extra data"
  | numberTooLong digits =>
    "Exceeds the limit (4300 digits) for integer string conversion: value has " ++
      toString digits ++ " digits; use sys.set_int_max_str_digits() to increase the limit"
  | tooDeep => "maximum recursion depth exceeded"

/-- The words for a problem and its place in the text. -/
def Error.message (text : String) (e : Error) : String :=
  match e.problem with
  | .numberTooLong _ | .tooDeep => e.problem.message
  | _ =>
    let cs := text.toList
    let position := cs.length - e.remaining
    let before := cs.take position
    let line := before.count '\n' + 1
    let column := (before.reverse.takeWhile (· != '\n')).length + 1
    e.problem.message ++ ": line " ++ toString line ++ " column " ++ toString column ++ " (char " ++
      toString position ++ ")"

end Montage.Json
