import Montage.Json.Reader
import Montage.Text.Alphanumeric
import Montage.Text.Case
import Montage.Value.Numeral

/-!
# Fields of a request

How the value of a field is read as a number, a switch, a list or a word.  Every
reader says what it refuses and names the field.
-/

namespace Montage

/-- A request: field names with their values, in the order in which they
came. -/
abbrev Request := List (Value × Value)

namespace Request

/-- The value of the first of several names that the request has; no value if it
has none of them. -/
def field (request : Request) : List String → Value
  | [] => .null
  | name :: rest =>
    match Value.lookup? request (.text name) with
    | some v => v
    | none => field request rest

/-- Refuse a field. -/
def refuse {α : Type} (name : Option String) (cause : FieldCause) : Except Failure α :=
  .error (.field name cause)

/-- Refuse a field and show its value. -/
def refuseShown {α : Type} (name : Option String) (cause : String → FieldCause) (v : Value) :
    Except Failure α := do
  refuse name (cause (← v.quoted))

/-- A finite number, or nothing if the field is blank. -/
def number? (v : Value) (name : Option String) : Except Failure (Option Float) := do
  if v.isBlank then return none
  match v with
  | .bool _ => refuse name .notNumber
  | v =>
    match ← v.toFloat? with
    | none => refuseShown name .notNumberBut v
    | some x =>
      if x.isFinite then return some x
      else refuseShown name .notFinite v

/-- A speed above `low` and at most `high`, where they are given; one if the
field is blank. -/
def speed (v : Value) (name : Option String) (low high : Option Float) : Except Failure Float := do
  let x := (← number? v name).getD 1.0
  let shown (bound : Option Float) : String := match bound with
    | none => "None"
    | some b => Decimal.fullText b
  if x ≤ 0.0 then refuse name .speedNotPositive
  else if low.any (x ≤ ·) then refuse name (.speedOutside (shown low) (shown high))
  else if high.any (· < x) then refuse name (.speedOutside (shown low) (shown high))
  else return x

/-- A switch; `default` if the field is blank. -/
def switch (v : Value) (name : Option String) (default : Bool) : Except Failure Bool := do
  if v.isBlank then return default
  match v with
  | .bool b => return b
  | .number (.int n) => return n != 0
  | .text s =>
    let word := Text.lowerCase (Text.strip s)
    if ["true", "1", "yes", "on"].contains word then return true
    else if ["false", "0", "no", "off"].contains word then return false
    else refuseShown name .notBoolean v
  | v => refuseShown name .notBoolean v

/-- The parts of a text between commas. -/
def commaParts (s : String) : List String := (s.toList.splitOn ',').map String.ofList

/-- The texts of a list, all of which have to be texts. -/
def texts (name : Option String) : List Value → Except Failure (List String)
  | [] => .ok []
  | .text s :: rest => do return s :: (← texts name rest)
  | _ :: _ => refuse name .filterNotText

/-- Filter expressions: a text with commas between them, or a list of texts.
Blank ones are dropped. -/
def filters (v : Value) (name : Option String) : Except Failure (List String) := do
  let tidy (parts : List String) : List String := (parts.map Text.strip).filter (· != "")
  if v.isBlank then return []
  match v with
  | .text s => return tidy (commaParts s)
  | .list items => return tidy (← texts name items)
  | .pair first second => return tidy (← texts name [first, second])
  | _ => refuse name .notFilterList

/-- File names, none of which may be blank. -/
def names (name : Option String) : List Value → Except Failure (List String)
  | [] => .ok []
  | .text s :: rest =>
    if Text.isBlankText s then refuse name .nameBlank
    else do return s :: (← names name rest)
  | _ :: _ => refuse name .nameBlank

/-- A list of file names, or a JSON text of one. -/
def nameList (v : Value) (name : Option String) : Except Failure (List String) := do
  if v.isBlank then return []
  let list ← match v with
    | .text s =>
      match Json.read s with
      | .ok list => pure list
      | .error ⟨.tooDeep, _⟩ => throw (.fault .endless)
      | .error _ => refuse name .namesUnreadable
    | v => pure v
  match list with
  | .list items => names name items
  | .pair first second => names name [first, second]
  | _ => refuse name .notNameList

/-- The name of a file that has to be given. -/
def requiredName (request : Request) (keys : List String) : Except Failure String := do
  let name := keys.headD ""
  match request.field keys with
  | .text s => if Text.isBlankText s then refuse name .required else return s
  | .null => refuse name .required
  | _ => refuse name .notFileName

/-- The container formats that an output may have. -/
def formats : List String := ["mp4", "mov", "avi", "mp3", "gif", "mkv", "webm"]

/-- The format of an output of which nothing else is said. -/
def usualFormat : String := "mp4"

/-- A container format, or nothing if the field is blank. -/
def format? (v : Value) : Except Failure (Option String) := do
  if v.isBlank then return none
  let word := Text.lowerCase (Text.strip (← v.plain))
  if formats.contains word then return some word
  else refuse "format" (.unknownFormat (", ".intercalate formats) (← v.quoted))

/-- Whether a text can name a codec: letters and digits of any script,
underscores and hyphens. -/
def isCodecName (cs : List Char) : Bool :=
  let cs := cs.filter fun c => c != '_' && c != '-'
  !cs.isEmpty && cs.all Text.isAlphanumeric

/-- The name of a codec, or nothing if the field is blank. -/
def codec? (v : Value) (name : String) : Except Failure (Option String) := do
  if v.isBlank then return none
  let word := Text.strip (← v.plain)
  if isCodecName word.toList then return some word
  else refuseShown name .badCodec v

end Request

end Montage
