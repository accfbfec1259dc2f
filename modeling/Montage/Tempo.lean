import Montage.Filter

/-!
# Tempo

A change of speed scales the presentation times of the video by one filter.  The
tempo of the sound can only be changed by a ratio from one half to two at a
time, so a larger or smaller ratio is reached by several stages.
-/

namespace Montage.Tempo

variable {α : Type} [Arithmetic α]

/-- Stages of two while the remaining ratio exceeds two, and the ratio that is
left. -/
def speedUp : Nat → α → Option (List α × α)
  | 0, _ => none
  | fuel + 1, r =>
    if Arithmetic.lt Arithmetic.two r then
      (speedUp fuel (Arithmetic.div r Arithmetic.two)).map fun (stages, r) =>
        (Arithmetic.two :: stages, r)
    else some ([], r)

/-- Stages of one half while the remaining ratio is below one half, and the
ratio that is left. -/
def slowDown : Nat → α → Option (List α × α)
  | 0, _ => none
  | fuel + 1, r =>
    if Arithmetic.lt r Arithmetic.half then
      (slowDown fuel (Arithmetic.div r Arithmetic.half)).map fun (stages, r) =>
        (Arithmetic.half :: stages, r)
    else some ([], r)

/-- The stages whose product is the ratio, found within `fuel` steps of each
kind. -/
def stagesWithin (fuel : Nat) (ratio : α) : Option (List α) :=
  match speedUp fuel (Arithmetic.real ratio) with
  | none => none
  | some (fast, r) =>
    match slowDown fuel r with
    | none => none
    | some (slow, r) =>
      some (fast ++ slow ++ if Arithmetic.eq r Arithmetic.one then [] else [r])

/-- The stages whose product is the ratio.  A ratio that no number of stages
reaches has no end. -/
def stages (ratio : α) : Except Failure (List α) :=
  match stagesWithin (Arithmetic.reach ratio) ratio with
  | some list => .ok list
  | none => .error (.fault .endless)

/-- A ratio has to exceed zero and to be a number with which one can compute. -/
def check (ratio : α) : Except Failure Unit :=
  if Arithmetic.isAtMostZero ratio then .error (.field (some "speed") .speedNotPositive)
  else if !Arithmetic.fits ratio then .error (.fault .tooLarge)
  else .ok ()

/-- The factor that scales the presentation times. -/
def timeFactor (ratio : α) : α := Arithmetic.div Arithmetic.one ratio

/-- The filters that change the tempo of the sound. -/
def filters (ratio : α) : Except Failure (List (Filter α)) := do
  check ratio
  return (← stages ratio).map fun stage => .positional "atempo" [.number stage]

/-- The filter that scales the presentation times. -/
def timeFilter (ratio : α) : Except Failure (Filter α) := do
  check ratio
  return .positional "setpts" [.scaledTime (timeFactor ratio)]

/-- Read a speed ratio given as a value. -/
def ofValue (v : Value) : Except Failure Number := do
  match v with
  | .number n => check n; return Arithmetic.real n
  | v => throw (.field (some "speed") (.speedNotNumber (← v.quoted)))

end Montage.Tempo
