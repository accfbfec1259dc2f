import Montage.Filter
import Montage.Text.Case

/-!
# Resizing

A target size and the way in which a picture is brought to it: fitted into the
frame with bars around, covering the frame with its overflow cropped, or
stretched.
-/

namespace Montage

/-- A target size with the word for the way to reach it. -/
structure Resize where
  width : Int
  height : Int
  mode : String := "fit"
  deriving Repr, DecidableEq

namespace Resize

/-- The ways to reach a size. -/
def modes : List String := ["fit", "cover", "stretch"]

variable {α : Type} [Arithmetic α]

/-- The filter that scales to a size, with the rule that keeps the aspect ratio
if there is one. -/
def scaleFilter (width height : α) (keep : Option String) : Filter α :=
  ⟨"scale", [(none, .number width), (none, .number height)] ++
    (match keep with
      | none => []
      | some rule => [(some "force_original_aspect_ratio", .text rule)])⟩

/-- Square pixels, so that players do not stretch the picture again. -/
def squarePixels : Filter α :=
  .positional "setsar" [.number (Arithmetic.ofInt 1)]

/-- The filters that bring a picture to the size.  An unknown mode fits. -/
def filters (r : Resize) : List (Filter α) :=
  let width : α := Arithmetic.ofInt r.width
  let height : α := Arithmetic.ofInt r.height
  if r.mode == "stretch" then
    [scaleFilter width height none, squarePixels]
  else if r.mode == "cover" then
    [scaleFilter width height (some "increase"),
      .positional "crop" [.number width, .number height], squarePixels]
  else
    [scaleFilter width height (some "decrease"),
      .positional "pad" [.number width, .number height, .text "(ow-iw)/2", .text "(oh-ih)/2"],
      squarePixels]

/-- The filters of an optional resize. -/
def filtersOf : Option Resize → List (Filter α)
  | none => []
  | some r => r.filters

/-- Read one side of a size. -/
def readSide (field : String) (v : Value) : Except Failure Int := do
  let refuse (v : Value) : Except Failure Int := do
    throw (.field (some field) (.badDimension (← v.quoted)))
  let side (v : Value) : Except Failure Int := do
    match v.plain with
    | .error _ => refuse v
    | .ok s =>
      match Decimal.readInt? (Text.strip s) with
      | none => refuse v
      | some n =>
        if n ≤ 0 then
          throw (.field (some field) (.dimensionNotPositive (← (Value.number (.int n)).quoted)))
        else return n
  match v with
  | .bool _ => refuse v
  | .number (.float x) =>
    match Decimal.truncate? x with
    | some n => if Number.eq (.int n) (.float x) then side (.number (.int n)) else refuse v
    | none => refuse v
  | v => side v

/-- The mode a value asks for; anything unknown asks for the usual one. -/
def readMode (v : Value) : String :=
  match v with
  | .text s =>
    let word := Text.lowerCase (Text.strip s)
    if modes.contains word then word else "fit"
  | _ => "fit"

/-- Read a size: a text such as `1280:720`, or a list or pair of two sides.  No value, a
blank text and the word `original` ask for no resize. -/
def read (resolution mode : Value) (field : String) : Except Failure (Option Resize) := do
  let refuse : Except Failure (Option Resize) := do
    throw (.field (some field) (.notResolution (← resolution.quoted)))
  let sides (parts : List Value) : Except Failure (Option Resize) := do
    match parts with
    | [w, h] =>
      let width ← readSide field w
      let height ← readSide field h
      return some { width, height, mode := readMode mode }
    | _ => refuse
  match resolution with
  | .null => return none
  | .text s =>
    let word := Text.trim s.toList
    if word.isEmpty || Text.lower word == "original".toList then return none
    else sides ((word.splitOn ':').map fun part => .text (String.ofList part))
  | .list items => sides items
  | .pair first second => sides [first, second]
  | _ => refuse

end Resize

end Montage
