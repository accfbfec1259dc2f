import Montage.Graph.Builder
import Montage.Plan.Assemble
import Montage.Tempo

/-!
# Fixed recipes

The plans that take one clip and no settings beyond a format or a speed:
convert, change speed, mute and replace the sound.
-/

namespace Montage.Plan

variable {α : Type} [Arithmetic α]

/-- The label of a graph's video result. -/
def videoLabel : String := "v"

/-- The label of a graph's audio result. -/
def audioLabel : String := "a"

/-- The number of repetitions that stands for repeating without end. -/
def endlessLoop : Int := -1

/-- Convert a clip to another container format. -/
def convert (clip : Clip) (target format : String) : Except Failure (Plan α) :=
  assemble [{ clip }] none [] { format := some format } target none

/-- Change the speed of a clip. -/
def changeSpeed (clip : Clip) (ratio : α) (target : String) : Except Failure (Plan α) := do
  let timing ← Tempo.timeFilter ratio
  let builder ← (Builder.empty.chain [Label.raw 0 .video] [timing] [videoLabel]).mapError .plan
  let tempo ← Tempo.filters ratio
  if tempo.isEmpty then
    let graph ← (builder.build (some videoLabel) none).mapError .plan
    let maps := [.ofLabel videoLabel, .ofStream 0 .audio none true]
    assemble [{ clip }] (some graph) maps {} target none
  else
    let builder ← (builder.chain [Label.raw 0 .audio] tempo [audioLabel]).mapError .plan
    let graph ← (builder.build (some videoLabel) (some audioLabel)).mapError .plan
    assemble [{ clip }] (some graph) [.ofLabel videoLabel, .ofLabel audioLabel] {} target none

/-- Take the sound away from a clip. -/
def mute (clip : Clip) (target : String) : Except Failure (Plan α) :=
  assemble [{ clip }] none [] { noAudio := true } target none

/-- Give a clip another sound track and keep its video as it is. -/
def replaceSound (clip sound : Clip) (loop temporary : Bool) (target : String) :
    Except Failure (Plan α) :=
  assemble
    [{ clip }, { clip := sound, loop := if loop then some endlessLoop else none, temporary }]
    none
    [.ofStream 0 .video (some 0) false, .ofStream 1 .audio (some 0) false]
    { videoCodec := some "copy", shortest := true }
    target none

end Montage.Plan
