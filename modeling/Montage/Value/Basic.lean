import Montage.Calendar
import Montage.Number

/-!
# Values of a request

A request is a mapping from field names to values of any kind a YAML or JSON
document can hold.
-/

namespace Montage

/-- A value of a request, a configuration or a probe report. -/
inductive Value
  | null
  | bool (b : Bool)
  | number (n : Number)
  | text (s : String)
  | bytes (bs : List UInt8)
  | date (d : Date)
  | moment (m : Moment)
  | list (items : List Value)
  | pair (first second : Value)
  /-- A mapping, in the order in which its keys first came. -/
  | map (entries : List (Value × Value))
  | set (items : List Value)

namespace Value

instance : Inhabited Value := ⟨null⟩

/-- The text of a text value. -/
def text? : Value → Option String
  | text s => some s
  | _ => none

/-- The number of a number value. -/
def number? : Value → Option Number
  | number n => some n
  | _ => none

/-- Whether the value can be a key of a mapping. -/
def isKey : Value → Bool
  | list _ | map _ | set _ => false
  | _ => true

/-- The number that a key counts as: truth values count as one and zero. -/
def keyNumber? : Value → Option Number
  | bool b => some (.int (if b then 1 else 0))
  | number n => some n
  | _ => none

/-- Whether two keys are one.  Numbers and truth values are compared by their
numeric value. -/
def sameKey (a b : Value) : Bool :=
  match a.keyNumber?, b.keyNumber? with
  | some x, some y => x.eq y
  | none, none =>
    match a, b with
    | null, null => true
    | text s, text t => s == t
    | bytes s, bytes t => s == t
    | date d, date e => d == e
    | moment m, moment n => m == n
    | _, _ => false
  | _, _ => false

/-- Put a value under a key: a key that is there keeps its place. -/
def put (entries : List (Value × Value)) (key value : Value) : List (Value × Value) :=
  match entries with
  | [] => [(key, value)]
  | (k, v) :: rest => if k.sameKey key then (k, value) :: rest else (k, v) :: put rest key value

/-- The value under a key. -/
def lookup? (entries : List (Value × Value)) (key : Value) : Option Value :=
  (entries.find? fun entry => entry.1.sameKey key).map Prod.snd

/-- Whether nothing is there: no value, or a text of white space only. -/
def isBlank : Value → Bool
  | null => true
  | text s => Text.isBlankText s
  | _ => false

end Value

end Montage
