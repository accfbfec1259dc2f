import Montage.Plan.Recipes
import Montage.Plan.Sound
import Montage.Resize

/-!
# Joining clips

Two or more clips become one output, in the given order.  Every clip is brought
to the same size, then all are concatenated, with their own sound or without.
-/

namespace Montage.Plan

variable {α : Type} [Arithmetic α]

/-- How often a replacing track is repeated; the output ends with its video. -/
def joinLoops : Int := 1000

/-- The filter that plays its inputs one after another. -/
def concatFilter (count : Nat) (sound : Bool) : Filter α :=
  ⟨"concat", [(some "n", .number (Arithmetic.ofInt count)),
    (some "v", .number (Arithmetic.ofInt 1)),
    (some "a", .number (Arithmetic.ofInt (if sound then 1 else 0)))]⟩

/-- Route the video of `count` clips, from number `index` on, through the
filters.  The labels to be concatenated follow the order of the clips, each
video followed by its sound if that is kept. -/
def routeClips (filters : List (Filter α)) (sound : Bool) :
    Nat → Nat → Builder α → Except PlanCause (Builder α × List String)
  | 0, _, builder => .ok (builder, [])
  | count + 1, index, builder =>
    match builder.addClipVideo index filters with
    | (_, .error cause) => .error cause
    | (builder, .ok video) =>
      match routeClips filters sound count (index + 1) builder with
      | .error cause => .error cause
      | .ok (builder, labels) =>
        .ok (builder, video :: (if sound then [Label.raw index .audio] else []) ++ labels)

/-- Join clips in the given order. -/
def join (clips : List Clip) (resize : Option Resize) (sound : Sound) (target : String)
    (format : Option String) : Except Failure (Plan α) := do
  if clips.length < 2 then throw (.field (some "videos") .tooFewClips)
  sound.check
  let keep := sound.isOriginal
  let count := clips.length
  let sources : List Input := clips.map fun clip => { clip }
  let (builder, labels) ←
    (routeClips (Resize.filtersOf resize) keep count 0 Builder.empty).mapError .plan
  let outputs := if keep then [videoLabel, audioLabel] else [videoLabel]
  let builder ← (builder.chain labels [concatFilter count keep] outputs).mapError .plan
  let graph ←
    (builder.build (some videoLabel) (if keep then some audioLabel else none)).mapError .plan
  match sound with
  | .replaced track _ temporary =>
    -- The track is looked up among the inputs, where the same clip may stand before it.
    let replacing : Input := { clip := track, loop := some joinLoops, temporary }
    let inputs := sources ++ [replacing]
    match inputs.idxOf? replacing with
    | none => throw (.fault .badValue)
    | some index =>
      assemble inputs (some graph) [.ofLabel videoLabel, .ofStream index .audio none false]
        { format, shortest := true } target none
  | _ =>
    assemble sources (some graph)
      (.ofLabel videoLabel :: if keep then [.ofLabel audioLabel] else [])
      { format } target none

end Montage.Plan
