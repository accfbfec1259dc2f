import Montage.Plan.Recipes
import Montage.Plan.Sound
import Montage.Resize

/-!
# Custom edits

An edit of one clip that combines everything: resize, the caller's own filters,
speed, volume, fades and sound.  The video is resized, then passes the caller's
filters, then is retimed.  The sound passes the caller's filters, then the tempo
stages, then volume, fade-in and fade-out.

The length of the source is needed only for a fade at its end or to stop an
endless sound track.  An edit that needs it is a plan awaiting that one answer.
-/

namespace Montage

/-- A custom edit in the number system `α`. -/
structure Edit (α : Type) where
  resize : Option Resize := none
  speed : α
  videoFilters : List String := []
  audioFilters : List String := []
  volume : α
  fadeIn : α
  fadeOut : α
  sound : Sound := .original
  format : Option String := none
  videoCodec : Option String := none
  audioCodec : Option String := none

/-- A way to learn the length of a clip in seconds. -/
abbrev Probe (α : Type) := Clip → Except Failure (Option α)

/-- A plan that is settled, or that awaits the length of one clip. -/
inductive Draft (α : Type)
  | settled (outcome : Except Failure (Plan α))
  | awaiting (clip : Clip) (resume : α → Except Failure (Plan α))

variable {α : Type} [Arithmetic α]

/-- The answer of a probe as a usable length. -/
def usableLength (clip : Clip) : Option α → Except Failure α
  | none => .error (.probe clip.path (.unusable "None"))
  | some d =>
    if Arithmetic.isAtMostZero d then .error (.probe clip.path (.unusable (Arithmetic.text d)))
    else if !Arithmetic.fits d then .error (.fault .tooLarge)
    else .ok (Arithmetic.real d)

namespace Draft

/-- The clips whose length is asked for. -/
def asked : Draft α → List Clip
  | settled _ => []
  | awaiting clip _ => [clip]

/-- Settle the draft with a probe, if there is one. -/
def settle (draft : Draft α) (probe : Option (Probe α)) : Except Failure (Plan α) :=
  match draft with
  | settled outcome => outcome
  | awaiting clip resume =>
    match probe with
    | none => .error (.probe clip.path .unavailable)
    | some ask => do
      let answer ← ask clip
      resume (← usableLength clip answer)

end Draft

namespace Edit

/-- The edit that changes nothing. -/
def unchanged : Edit α :=
  { speed := Arithmetic.one, volume := Arithmetic.one, fadeIn := Arithmetic.zero,
    fadeOut := Arithmetic.zero }

/-- Refuse settings outside their ranges. -/
def check (edit : Edit α) : Except Failure Unit := do
  if Arithmetic.isAtMostZero edit.speed then throw (.field (some "speed") .speedNotPositive)
  if Arithmetic.isAtMostZero edit.volume then throw (.field (some "volume") .volumeNotPositive)
  if Arithmetic.lt edit.fadeIn Arithmetic.zero then throw (.field (some "fadeIn") .fadeNegative)
  if Arithmetic.lt edit.fadeOut Arithmetic.zero then throw (.field (some "fadeOut") .fadeNegative)
  edit.sound.check

/-- Whether the speed changes. -/
def changesSpeed (edit : Edit α) : Bool := !Arithmetic.eq edit.speed Arithmetic.one

/-- Whether the plan depends on the length of the source. -/
def needsLength (edit : Edit α) : Bool :=
  match edit.sound with
  | .replaced _ loop _ => loop
  | .original => Arithmetic.isPositive edit.fadeOut
  | _ => false

/-- The length of the output, from the length of the source. -/
def outputLength (edit : Edit α) (source : α) : α :=
  if edit.changesSpeed then Arithmetic.div source edit.speed else source

/-- Where a fade-out starts so that it ends with the output. -/
def fadeOutStart (length fade : α) : α := Arithmetic.clampBelow (Arithmetic.sub length fade)

/-- A fade of the sound. -/
def fadeFilter (kind : String) (start length : α) : Filter α :=
  ⟨"afade", [(some "t", .text kind), (some "st", .number start), (some "d", .number length)]⟩

/-- The filters of the video. -/
def videoChain (edit : Edit α) : Except Failure (List (Filter α)) := do
  let retiming ←
    if edit.changesSpeed then (Tempo.timeFilter edit.speed).map fun f => [f] else pure []
  return Resize.filtersOf edit.resize ++ edit.videoFilters.map Filter.ofExpression ++ retiming

/-- The filters of the sound, given the length of the output if it is known. -/
def audioChain (edit : Edit α) (length : Option α) : Except Failure (List (Filter α)) := do
  let tempo ← if edit.changesSpeed then Tempo.filters edit.speed else pure []
  let volume :=
    if Arithmetic.eq edit.volume Arithmetic.one then []
    else [Filter.positional "volume" [.number edit.volume]]
  let fadeIn :=
    if Arithmetic.isPositive edit.fadeIn then
      [fadeFilter "in" (Arithmetic.ofInt 0) edit.fadeIn]
    else []
  let fadeOut ←
    match length with
    | some length =>
      if !Arithmetic.isPositive edit.fadeOut then pure []
      else if !Arithmetic.fits edit.fadeOut then .error (.fault .tooLarge)
      else pure [fadeFilter "out" (fadeOutStart length edit.fadeOut) edit.fadeOut]
    | none => pure []
  return edit.audioFilters.map Filter.ofExpression ++ tempo ++ volume ++ fadeIn ++ fadeOut

/-- Add a chain for one stream of the source, unless it has no filters; the
label of its result. -/
def addChain (builder : Builder α) (stream : Stream) (filters : List (Filter α)) (label : String) :
    Except Failure (Builder α × Option String) :=
  if filters.isEmpty then .ok (builder, none)
  else
    match builder.chain [Label.raw 0 stream] filters [label] with
    | .ok builder => .ok (builder, some label)
    | .error cause => .error (.plan cause)

/-- The inputs: the source, and the track that replaces its sound. -/
def inputs (edit : Edit α) (clip : Clip) : List Input :=
  match edit.sound with
  | .replaced track loop temporary =>
    [{ clip }, { clip := track, loop := if loop then some Plan.endlessLoop else none, temporary }]
  | _ => [{ clip }]

/-- Whether another track replaces the sound. -/
def replacesSound (edit : Edit α) : Bool :=
  match edit.sound with
  | .replaced _ _ _ => true
  | _ => false

/-- Which streams go into the output, given the results of the graph. -/
def maps (edit : Edit α) (video audio : Option String) : List StreamMap :=
  if video.isNone && audio.isNone && !edit.replacesSound then []
  else
    (match video with
      | some label => [.ofLabel label]
      | none => [.ofStream 0 .video none (!edit.replacesSound)]) ++
    (match audio with
      | some label => [.ofLabel label]
      | none =>
        if edit.replacesSound then [.ofStream 1 .audio none false]
        else if edit.sound.isOriginal then [.ofStream 0 .audio none true]
        else [])

/-- The options of the output, given its length if it is known. -/
def options (edit : Edit α) (length : Option α) : OutputOptions α :=
  let (duration, shortest) : Option α × Bool := match edit.sound with
    | .replaced _ loop _ => if loop then (length, false) else (none, true)
    | _ => (none, false)
  { format := edit.format, videoCodec := edit.videoCodec, audioCodec := edit.audioCodec,
    duration, shortest, noAudio := edit.sound.isMuted }

/-- The plan of an edit, given the length of the output if the edit depends on
it. -/
def compose (edit : Edit α) (clip : Clip) (target : String) (length : Option α) :
    Except Failure (Plan α) := do
  let videoFilters ← edit.videoChain
  let audioFilters ← if edit.sound.isOriginal then edit.audioChain length else pure []
  let (builder, video) ← addChain Builder.empty .video videoFilters Plan.videoLabel
  let (builder, audio) ← addChain builder .audio audioFilters Plan.audioLabel
  let graph ←
    if builder.isEmpty then pure none
    else some <$> (builder.build video audio).mapError .plan
  Plan.assemble (edit.inputs clip) graph (edit.maps video audio) (edit.options length) target length

/-- The plan of an edit, or the question that stands before it. -/
def plan (edit : Edit α) (clip : Clip) (target : String) : Draft α :=
  match edit.check with
  | .error failure => .settled (.error failure)
  | .ok () =>
    if edit.needsLength then
      .awaiting clip fun source => edit.compose clip target (some (edit.outputLength source))
    else .settled (edit.compose clip target none)

end Edit

end Montage
