import Montage.Proofs.Plan.JoinFlow

/-!
# Where the sound of a plan comes from

The sound of an input can come into the output in three ways: a chain of the graph reads
it, a map names it, or there is no map at all and the engine takes what the first input
has.  The sources of a plan are the inputs whose sound is taken in one of these ways
(`Plan.soundSources`).  Every planner takes the sound that it is told to take and no other
(`soundSources_changeSpeed`, `soundSources_edit`, `soundSources_join`).
-/

namespace Montage

variable {α : Type}

/-- The number of the input whose sound a label names. -/
def Label.soundInput? (label : String) : Option Int :=
  if isSound label then (rawInput? label).toOption.join else none

/-- The number of the input whose sound a map names. -/
def StreamMap.soundInput? (m : StreamMap) : Option Int :=
  if m.label.isNone && m.stream == some "a" then m.input else none

/-- The inputs whose sound a plan takes. -/
def Plan.soundSources (plan : Plan α) : List Int :=
  (reads plan.graph).filterMap Label.soundInput? ++ plan.maps.filterMap StreamMap.soundInput? ++
    if plan.maps.isEmpty && !plan.options.noAudio then [0] else []

/-- The inputs whose sound is taken of `count` clips and the track behind them. -/
def Sound.sources (sound : Sound) (count : Nat) : List Int :=
  match sound with
  | original => (List.range count).map fun n : Nat => (n : Int)
  | replaced _ _ _ => [(count : Int)]
  | _ => []

/-- The number in the raw label of a sound is read back, as far as numbers can be read. -/
theorem Label.soundInput?_raw {n : Nat} (h : n < Decimal.unreadable) :
    soundInput? (raw n .audio) = some (n : Int) := by
  rw [soundInput?, isSound_raw, if_pos (by decide), rawInput?_raw, if_pos h]
  rfl

/-- Only the labels of sounds count. -/
theorem Label.filterMap_soundInput? (labels : List String) :
    labels.filterMap soundInput? = (labels.filter isSound).filterMap soundInput? := by
  rw [List.filterMap_filter]
  refine List.filterMap_congr fun label _ => ?_
  unfold soundInput?
  split <;> simp_all

namespace Plan

/-- The graph of a source reads the sound of the source if it has a chain for it. -/
theorem sounds_sourceGraph (video audio : List (Filter α)) :
    (reads (sourceGraph video audio)).filter Label.isSound =
      if audio.isEmpty then [] else [Label.raw 0 .audio] := by
  have hvideo : Label.isSound (Label.raw 0 .video) = false := Label.isSound_raw 0 .video
  have haudio : Label.isSound (Label.raw 0 .audio) = true := Label.isSound_raw 0 .audio
  cases video <;> cases audio <;>
    simp [reads, sourceGraph, sourceChains, sourceChain, hvideo, haudio]

theorem soundInputs_sourceGraph (video audio : List (Filter α)) :
    (reads (sourceGraph video audio)).filterMap Label.soundInput? =
      if audio.isEmpty then [] else [0] := by
  have hlimit := Decimal.one_lt_unreadable
  have hread : Label.soundInput? (Label.raw 0 .audio) = some 0 :=
    Label.soundInput?_raw (show 0 < Decimal.unreadable by omega)
  rw [Label.filterMap_soundInput?, sounds_sourceGraph]
  split
  · rfl
  · rw [List.filterMap_cons, hread]
    rfl

theorem soundSources_changeSpeed (inputs : List Input) (timing : Filter α) (tempo : List (Filter α))
    (target : String) (estimate : Option α) :
    (⟨inputs, sourceGraph [timing] tempo, speedMaps tempo, {}, target, estimate⟩ :
      Plan α).soundSources = [0] := by
  rw [soundSources, soundInputs_sourceGraph, speedMaps]
  cases tempo <;> rfl

end Plan

/-- An edit takes the sound of the source or of the track, as it is told. -/
theorem Edit.soundSources_edit [Arithmetic α] (edit : Edit α) (clip : Clip)
    (video audio : List (Filter α)) (length : Option α) (target : String) (estimate : Option α)
    (hkept : edit.sound.isOriginal = false → audio = []) (hsound : edit.sound.check = .ok ()) :
    (⟨edit.inputs clip, Plan.sourceGraph video audio,
      edit.maps (Plan.sourceResult .video video) (Plan.sourceResult .audio audio),
      edit.options length, target, estimate⟩ : Plan α).soundSources = edit.sound.sources 1 := by
  rw [Plan.soundSources, Plan.soundInputs_sourceGraph]
  unfold maps replacesSound options
  cases hkind : edit.sound with
  | original =>
      cases video <;> cases audio <;> rfl
  | muted =>
      obtain rfl := hkept (by rw [hkind]; rfl)
      cases video <;> rfl
  | replaced track loop temporary =>
      obtain rfl := hkept (by rw [hkind]; rfl)
      cases video <;> rfl
  | unknown shown =>
      rw [hkind] at hsound
      cases hsound

/-- A join takes the sound of all clips or of the track, as it is told. -/
theorem Plan.soundSources_join [Arithmetic α] (clips : List Clip) (filters : List (Filter α))
    (sound : Sound) (format : Option String) (target : String) (estimate : Option α)
    (hsound : sound.check = .ok ()) (hcount : clips.length ≤ Decimal.unreadable) :
    (⟨joinInputs clips sound, some (joinGraph filters sound.isOriginal clips.length),
      joinMaps sound clips.length, joinOptions sound format, target, estimate⟩ :
      Plan α).soundSources = sound.sources clips.length := by
  have hread : (reads (some (joinGraph filters sound.isOriginal clips.length))).filterMap
      Label.soundInput? =
        if sound.isOriginal then (List.range clips.length).map fun n : Nat => (n : Int)
        else [] := by
    rw [Label.filterMap_soundInput?, sounds_joinGraph]
    split
    · rw [List.filterMap_map, ← List.filterMap_eq_map]
      refine List.filterMap_congr fun n hn => ?_
      have hlt : n < clips.length := List.mem_range.1 hn
      exact Label.soundInput?_raw (by omega)
    · rfl
  rw [soundSources, hread]
  cases sound with
  | original => exact (List.append_nil _).trans (List.append_nil _)
  | muted => rfl
  | replaced track loop temporary => rfl
  | unknown shown => cases hsound

end Montage
