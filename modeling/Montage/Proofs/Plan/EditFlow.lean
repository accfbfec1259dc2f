import Montage.Proofs.Graph.Signal
import Montage.Proofs.Plan.Parts

/-!
# What a custom edit plays

The streams that go into the output are found by following the maps of a plan back through
its graph (`Plan.outputs`).  The graph of a source has at most one chain for each of its two
streams, and a side without a chain is the stream of the source itself
(`evaluate_sourceChains`).  So whatever filters an edit has on either side, its plan plays
the video of the source behind the filters of the video and, if the sound is kept, the
sound of the source behind the filters of the sound: neither is lost because only the other
one is filtered.
-/

namespace Montage

variable {α : Type}

/-- The filters of the given stages of a tempo. -/
def Tempo.filtersOf (stages : List α) : List (Filter α) :=
  stages.map fun stage => .positional "atempo" [.number stage]

/-- The stream of a label behind filters; without filters the stream itself. -/
def Signal.through (label : String) (filters : List (Filter α)) : Signal α :=
  if filters.isEmpty then .raw label else .result [.raw label] filters 0

/-- The raw label of the stream of an input that a map names. -/
def StreamMap.rawLabel (m : StreamMap) : String := numberText m.input ++ ":" ++ m.stream.getD "None"

/-- The stream that a map takes. -/
def StreamMap.signal? (signals : Signals α) (m : StreamMap) : Option (Signal α) :=
  signals (m.label.getD m.rawLabel)

namespace Plan

/-- What labels stand for behind the graph of a plan. -/
def signals? (plan : Plan α) : Option (Signals α) :=
  match plan.graph with
  | none => some Signal.start
  | some graph => graph.evaluate

/-- The streams that go into the output: those that the maps take, or without any map the
video of the first input and its sound, unless the output has none. -/
def outputs (plan : Plan α) : Option (List (Signal α)) :=
  if plan.maps.isEmpty then
    some (.raw (Label.raw 0 .video) ::
      if plan.options.noAudio then [] else [.raw (Label.raw 0 .audio)])
  else plan.signals?.bind fun signals => plan.maps.mapM (StreamMap.signal? signals)

/-- The chains of the graph of a plan. -/
def chains (plan : Plan α) : List (Node α) :=
  match plan.graph with
  | none => []
  | some graph => graph.nodes

theorem raw_ne_labelOf (n : Nat) (stream kind : Stream) : Label.raw n stream ≠ labelOf kind := by
  intro h
  have hraw := Label.isRaw_raw n stream
  rw [h, isRaw_labelOf] at hraw
  cases hraw

/-- The chain of one stream of the source: its label stands for the stream behind the
filters, and all others stand for what they stood for. -/
theorem evaluate_sourceChain (stream : Stream) (filters : List (Filter α)) {signals : Signals α}
    (h : signals (Label.raw 0 stream) = some (.raw (Label.raw 0 stream))) :
    ∃ after, Graph.evaluateFrom (sourceChains stream filters) signals = some after ∧
      (filters ≠ [] → after (labelOf stream) = some (.through (Label.raw 0 stream) filters)) ∧
      ∀ label, label ≠ labelOf stream → after label = signals label := by
  cases filters with
  | nil => exact ⟨signals, rfl, fun hnone => absurd rfl hnone, fun _ _ => rfl⟩
  | cons first rest =>
      have hsources : (sourceChain stream (first :: rest)).inputs.mapM signals =
          some [.raw (Label.raw 0 stream)] := by
        simp [sourceChain, h]
      obtain ⟨after, hafter, houtputs, hothers⟩ := Node.evaluate_eq_some hsources
      refine ⟨after, ?_, fun _ => ?_, fun label hlabel => ?_⟩
      · exact (Graph.evaluateFrom_singleton _ _).trans hafter
      · exact houtputs _ 0 (by simp [sourceChain, List.idxOf?_cons])
      · exact hothers label (by simpa [sourceChain] using hlabel)

/-- The graph of a source: the label of each result stands for its stream behind the
filters, and the raw labels stand for their own streams. -/
theorem evaluate_sourceChains (video audio : List (Filter α)) :
    ∃ signals,
      Graph.evaluateFrom (sourceChains .video video ++ sourceChains .audio audio) Signal.start =
        some signals ∧
      (video ≠ [] → signals videoLabel = some (.through (Label.raw 0 .video) video)) ∧
      (audio ≠ [] → signals audioLabel = some (.through (Label.raw 0 .audio) audio)) ∧
      ∀ (n : Nat) stream, signals (Label.raw n stream) = some (.raw (Label.raw n stream)) := by
  obtain ⟨between, hbetween, hvideo, hkept⟩ :=
    evaluate_sourceChain .video video (Signal.start_raw 0 .video)
  have hraw (n : Nat) (stream : Stream) :
      between (Label.raw n stream) = some (.raw (Label.raw n stream)) := by
    rw [hkept _ (raw_ne_labelOf n stream .video), Signal.start_raw]
  obtain ⟨signals, hsignals, haudio, hothers⟩ := evaluate_sourceChain .audio audio (hraw 0 .audio)
  refine ⟨signals, ?_, fun hsome => ?_, haudio, fun n stream => ?_⟩
  · rw [Graph.evaluateFrom_append, hbetween, Option.bind_some, hsignals]
  · rw [hothers videoLabel labelOf_ne]
    exact hvideo hsome
  · rw [hothers _ (raw_ne_labelOf n stream .audio), hraw]

/-- What labels stand for behind the graph of a source, whether or not it has chains. -/
theorem signals?_sourceGraph {plan : Plan α} {video audio : List (Filter α)}
    (h : plan.graph = sourceGraph video audio) :
    ∃ signals, plan.signals? = some signals ∧
      (video ≠ [] → signals videoLabel = some (.through (Label.raw 0 .video) video)) ∧
      (audio ≠ [] → signals audioLabel = some (.through (Label.raw 0 .audio) audio)) ∧
      ∀ (n : Nat) stream, signals (Label.raw n stream) = some (.raw (Label.raw n stream)) := by
  obtain ⟨signals, hsignals, hstand⟩ := evaluate_sourceChains video audio
  refine ⟨signals, ?_, hstand⟩
  cases video with
  | nil =>
      cases audio with
      | nil => rw [signals?, h, ← hsignals]; rfl
      | cons => rw [signals?, h, ← hsignals]; rfl
  | cons => rw [signals?, h, ← hsignals]; rfl

theorem chains_sourceGraph {plan : Plan α} {video audio : List (Filter α)}
    (h : plan.graph = sourceGraph video audio) :
    plan.chains = sourceChains .video video ++ sourceChains .audio audio := by
  rw [chains, h]
  cases video <;> cases audio <;> rfl

end Plan

namespace Edit

open Plan

/-- The map of one side of a source: its result, or the stream of the source if it has
none. -/
def sideMap (stream : Stream) (filters : List (Filter α)) (optional : Bool) : StreamMap :=
  match sourceResult stream filters with
  | some label => .ofLabel label
  | none => .ofStream 0 stream none optional

/-- The map of one side takes the stream behind its filters. -/
theorem signal?_sideMap {signals : Signals α} {stream : Stream} {filters : List (Filter α)}
    (hresult : filters ≠ [] →
      signals (labelOf stream) = some (.through (Label.raw 0 stream) filters))
    (hraw : signals (Label.raw 0 stream) = some (.raw (Label.raw 0 stream))) (optional : Bool) :
    (sideMap stream filters optional).signal? signals =
      some (.through (Label.raw 0 stream) filters) := by
  cases filters with
  | nil => exact hraw
  | cons first rest => exact hresult (List.cons_ne_nil first rest)

/-- The maps of the sound of an edit whose sound has the given filters. -/
def soundMaps (edit : Edit α) (audio : List (Filter α)) : List StreamMap :=
  match edit.sound with
  | .original => [sideMap .audio audio true]
  | .replaced _ _ _ => [.ofStream 1 .audio none false]
  | _ => []

/-- Neither side of the source has filters, and its sound is not replaced. -/
def LeavesSource (edit : Edit α) (video audio : List (Filter α)) : Prop :=
  video = [] ∧ audio = [] ∧ edit.replacesSound = false

/-- What is left as it is needs no maps. -/
theorem maps_of_leavesSource {edit : Edit α} {video audio : List (Filter α)}
    (h : edit.LeavesSource video audio) :
    edit.maps (sourceResult .video video) (sourceResult .audio audio) = [] := by
  obtain ⟨rfl, rfl, hsound⟩ := h
  unfold maps
  rw [hsound]
  rfl

/-- Otherwise both sides are mapped, also one without filters. -/
theorem maps_of_not_leavesSource {edit : Edit α} {video audio : List (Filter α)}
    (hsound : edit.sound.check = .ok ()) (hkept : edit.sound.isOriginal = false → audio = [])
    (h : ¬ edit.LeavesSource video audio) :
    edit.maps (sourceResult .video video) (sourceResult .audio audio) =
      sideMap .video video (!edit.replacesSound) :: edit.soundMaps audio := by
  unfold LeavesSource replacesSound at h
  unfold maps soundMaps replacesSound
  cases hkind : edit.sound with
  | original =>
      rw [hkind] at h
      cases video with
      | nil =>
          cases audio with
          | nil => exact absurd ⟨rfl, rfl, rfl⟩ h
          | cons => rfl
      | cons => cases audio <;> rfl
  | muted =>
      obtain rfl := hkept (by rw [hkind]; rfl)
      rw [hkind] at h
      cases video with
      | nil => exact absurd ⟨rfl, rfl, rfl⟩ h
      | cons => rfl
  | replaced track loop temporary =>
      obtain rfl := hkept (by rw [hkind]; rfl)
      cases video <;> rfl
  | unknown shown =>
      rw [hkind] at hsound
      cases hsound

variable [Arithmetic α]

/-- The filters that the video of an edit passes: the resize, the caller's own, and the one
that scales its times exactly if the speed changes. -/
def videoPath (edit : Edit α) : List (Filter α) :=
  Resize.filtersOf edit.resize ++ edit.videoFilters.map Filter.ofExpression ++
    if edit.changesSpeed then
      [.positional "setpts" [.scaledTime (Tempo.timeFactor edit.speed)]]
    else []

/-- The filters of the sound before the fade at its end: the caller's own, the stages of the
tempo exactly if the speed changes, the volume exactly if it is not one, and the fade at the
start exactly if it has a length. -/
def steadyPath (edit : Edit α) (stages : List α) : List (Filter α) :=
  edit.audioFilters.map Filter.ofExpression ++
    (if edit.changesSpeed then Tempo.filtersOf stages else []) ++
    (if Arithmetic.eq edit.volume Arithmetic.one then []
      else [.positional "volume" [.number edit.volume]]) ++
    if Arithmetic.isPositive edit.fadeIn then
      [fadeFilter "in" (Arithmetic.ofInt 0) edit.fadeIn]
    else []

/-- The filters that the sound of an edit passes, given the length of the source: the fade at
the end comes last, and exactly if it has a length. -/
def soundPath (edit : Edit α) (stages : List α) (source : α) : List (Filter α) :=
  edit.steadyPath stages ++
    if Arithmetic.isPositive edit.fadeOut then
      [fadeFilter "out" (fadeOutStart (edit.outputLength source) edit.fadeOut) edit.fadeOut]
    else []

/-- Those filters if the sound is kept, and none otherwise. -/
def keptPath (edit : Edit α) (stages : List α) (source : α) : List (Filter α) :=
  if edit.sound.isOriginal then edit.soundPath stages source else []

/-- The sound that an edit plays: that of the source behind its filters, that of the track,
or none. -/
def soundSignals (edit : Edit α) (stages : List α) (source : α) : List (Signal α) :=
  match edit.sound with
  | .original => [.through (Label.raw 0 .audio) (edit.soundPath stages source)]
  | .replaced _ _ _ => [.raw (Label.raw 1 .audio)]
  | _ => []

/-- The probe gives the length of a clip. -/
def Measures (probe : Option (Probe α)) (clip : Clip) (source : α) : Prop :=
  ∃ ask answer, probe = some ask ∧ ask clip = .ok (some answer) ∧
    Arithmetic.isAtMostZero answer = false ∧ source = Arithmetic.real answer

variable {edit : Edit α} {clip : Clip} {target : String} {plan : Plan α}

theorem eq_videoPath {video : List (Filter α)} (h : edit.videoChain = .ok video) :
    video = edit.videoPath := by
  unfold videoChain at h
  unfold videoPath
  split at h
  · next hchanges =>
      obtain ⟨retiming, hretiming, h⟩ := Ends.of_bind_ok h
      cases h
      rw [if_pos hchanges]
      cases hcheck : Tempo.check edit.speed with
      | error failure =>
          rw [Tempo.timeFilter, hcheck] at hretiming
          cases hretiming
      | ok =>
          rw [Tempo.timeFilter, hcheck] at hretiming
          cases hretiming
          rfl
  · next hkeeps =>
      cases h
      rw [if_neg hkeeps]

/-- What is known of the tempo once its filters are. -/
theorem of_tempo {ratio : α} {filters : List (Filter α)} (h : Tempo.filters ratio = .ok filters) :
    ∃ stages, Tempo.stages ratio = .ok stages ∧ filters = Tempo.filtersOf stages := by
  obtain ⟨-, -, h⟩ := Ends.of_bind_ok h
  obtain ⟨stages, hstages, h⟩ := Ends.of_bind_ok h
  cases h
  exact ⟨stages, hstages, rfl⟩

/-- The filters of the sound, given the length of the output exactly if there is a fade at
its end. -/
theorem eq_soundPath {audio : List (Filter α)} {length : Option α} {source : α}
    (hfade : Arithmetic.isPositive edit.fadeOut = true → length = some (edit.outputLength source))
    (h : edit.audioChain length = .ok audio) :
    ∃ stages, (edit.changesSpeed = true → Tempo.stages edit.speed = .ok stages) ∧
      audio = edit.soundPath stages source := by
  unfold audioChain at h
  extract_lets volume fadeIn rest at h
  -- Behind the tempo only the fade at the end can fail.
  have hrest {tempo : List (Filter α)} (hdone : rest tempo = .ok audio) :
      audio = edit.audioFilters.map Filter.ofExpression ++ tempo ++ volume ++ fadeIn ++
        if Arithmetic.isPositive edit.fadeOut then
          [fadeFilter "out" (fadeOutStart (edit.outputLength source) edit.fadeOut) edit.fadeOut]
        else [] := by
    cases length with
    | none =>
        have hnone : ¬ Arithmetic.isPositive edit.fadeOut = true := fun hends => nomatch hfade hends
        cases hdone
        rw [if_neg hnone]
    | some length =>
        simp only [rest] at hdone
        split at hdone
        · next hnone =>
            cases hdone
            rw [if_neg (by simpa using hnone)]
        · next hends =>
            have hends : Arithmetic.isPositive edit.fadeOut = true := by simpa using hends
            cases hfade hends
            split at hdone
            · cases hdone
            · cases hdone
              rw [if_pos hends]
  split at h
  · next hchanges =>
      obtain ⟨tempo, htempo, h⟩ := Ends.of_bind_ok h
      obtain ⟨stages, hstages, rfl⟩ := of_tempo htempo
      refine ⟨stages, fun _ => hstages, ?_⟩
      rw [soundPath, steadyPath, if_pos hchanges]
      exact hrest h
  · next hkeeps =>
      refine ⟨[], fun hchanges => absurd hchanges hkeeps, ?_⟩
      rw [soundPath, steadyPath, if_neg hkeeps]
      exact hrest h

/-- The filters of the sound, which are none unless it is kept. -/
theorem eq_keptPath {audio : List (Filter α)} {length : Option α} {source : α}
    (hlength : edit.needsLength = true → length = some (edit.outputLength source))
    (h : edit.keptChain length = .ok audio) :
    ∃ stages, (edit.changesSpeed = true → edit.sound = .original →
        Tempo.stages edit.speed = .ok stages) ∧
      audio = edit.keptPath stages source := by
  unfold keptChain at h
  unfold keptPath
  cases hsound : edit.sound with
  | original =>
      rw [hsound] at h
      have hfade : Arithmetic.isPositive edit.fadeOut = true →
          length = some (edit.outputLength source) := fun hends =>
        hlength (by rw [needsLength, hsound]; exact hends)
      obtain ⟨stages, hstages, rfl⟩ := eq_soundPath hfade h
      exact ⟨stages, fun hchanges _ => hstages hchanges, rfl⟩
  | muted | replaced | unknown =>
      rw [hsound] at h
      cases h
      refine ⟨[], fun _ hkept => ?_, rfl⟩
      cases hkept

/-- An answer that is a usable length exceeds zero, and can be computed with. -/
theorem of_usableLength {answer : Option α} {source : α}
    (h : usableLength clip answer = .ok source) :
    ∃ d, answer = some d ∧ Arithmetic.isAtMostZero d = false ∧ Arithmetic.fits d = true ∧
      source = Arithmetic.real d := by
  cases answer with
  | none => cases h
  | some d =>
      cases hpositive : Arithmetic.isAtMostZero d with
      | true =>
          rw [usableLength, if_pos hpositive] at h
          cases h
      | false =>
          rw [usableLength, if_neg (by simp [hpositive])] at h
          split at h
          · cases h
          · next hfits =>
              cases h
              exact ⟨d, rfl, hpositive, by simpa using hfits, rfl⟩

/-- An edit that is settled to a plan is composed, for the length of the output that the
probe gave if the edit depends on it. -/
theorem of_settle {probe : Option (Probe α)}
    (h : (edit.plan clip target).settle probe = .ok plan) :
    edit.check = .ok () ∧ ∃ length, edit.compose clip target length = .ok plan ∧
      (edit.needsLength = true → ∃ source, Measures probe clip source ∧
        length = some (edit.outputLength source)) := by
  unfold Edit.plan at h
  split at h
  · cases h
  · next hcheck =>
      refine ⟨hcheck, ?_⟩
      split at h
      · cases probe with
        | none => cases h
        | some ask =>
            obtain ⟨answer, hanswer, h⟩ := Ends.of_bind_ok h
            obtain ⟨source, hsource, h⟩ := Ends.of_bind_ok h
            obtain ⟨d, rfl, hpositive, -, rfl⟩ := of_usableLength hsource
            exact ⟨_, h, fun _ => ⟨_, ⟨ask, d, rfl, hanswer, hpositive, rfl⟩, rfl⟩⟩
      · next hfree => exact ⟨none, h, fun hneeds => absurd hneeds hfree⟩

/-- The settings of an edit that passes its check are in range. -/
theorem of_check (h : edit.check = .ok ()) :
    Arithmetic.isAtMostZero edit.speed = false ∧ Arithmetic.isAtMostZero edit.volume = false ∧
      Arithmetic.lt edit.fadeIn Arithmetic.zero = false ∧
      Arithmetic.lt edit.fadeOut Arithmetic.zero = false ∧ edit.sound.check = .ok () := by
  unfold check at h
  obtain ⟨hspeed, h⟩ := Ends.of_guard_ok h
  obtain ⟨hvolume, h⟩ := Ends.of_guard_ok h
  obtain ⟨hfadeIn, h⟩ := Ends.of_guard_ok h
  obtain ⟨hfadeOut, hsound⟩ := Ends.of_guard_ok h
  exact ⟨by simpa using hspeed, by simpa using hvolume, by simpa using hfadeIn,
    by simpa using hfadeOut, hsound⟩

theorem keptPath_of_original {stages : List α} {source : α} (h : edit.sound = .original) :
    edit.keptPath stages source = edit.soundPath stages source := by
  rw [keptPath, h]
  rfl

theorem keptPath_of_not_original {stages : List α} {source : α}
    (h : edit.sound.isOriginal = false) : edit.keptPath stages source = [] := by
  rw [keptPath, h]
  rfl

/-- What the maps of the sound take. -/
theorem mapM_soundMaps {signals : Signals α} {stages : List α} {source : α}
    (hresult : edit.keptPath stages source ≠ [] → signals audioLabel =
      some (.through (Label.raw 0 .audio) (edit.keptPath stages source)))
    (hraw : ∀ (n : Nat) stream, signals (Label.raw n stream) = some (.raw (Label.raw n stream))) :
    (edit.soundMaps (edit.keptPath stages source)).mapM (StreamMap.signal? signals) =
      some (edit.soundSignals stages source) := by
  unfold soundMaps soundSignals
  cases hkind : edit.sound with
  | original =>
      rw [keptPath_of_original hkind] at hresult ⊢
      have hside := @signal?_sideMap _ _ .audio _ hresult (hraw 0 .audio) true
      simp [hside]
  | replaced track loop temporary =>
      have htrack : (StreamMap.ofStream 1 .audio none false).signal? signals =
          some (.raw (Label.raw 1 .audio)) := hraw 1 .audio
      simp [htrack]
  | muted | unknown => rfl

/-- An edit that leaves the source as it is plays both its streams, unless it is mute. -/
theorem soundSignals_of_leavesSource {stages : List α} {source : α}
    (hsound : edit.sound.check = .ok ())
    (h : edit.LeavesSource edit.videoPath (edit.keptPath stages source)) :
    edit.soundSignals stages source =
      if edit.sound.isMuted then [] else [.raw (Label.raw 0 .audio)] := by
  obtain ⟨-, haudio, hkept⟩ := h
  unfold keptPath at haudio
  unfold replacesSound at hkept
  unfold soundSignals
  cases hkind : edit.sound with
  | original =>
      rw [hkind] at haudio
      have hpath : edit.soundPath stages source = [] := haudio
      rw [hpath]
      rfl
  | muted => rfl
  | replaced track loop temporary =>
      rw [hkind] at hkept
      cases hkept
  | unknown shown =>
      rw [hkind] at hsound
      cases hsound

/-- The streams that go into the output of an edit. -/
theorem outputs_edit {stages : List α} {source : α} (hsound : edit.sound.check = .ok ())
    (hgraph : plan.graph = sourceGraph edit.videoPath (edit.keptPath stages source))
    (hmaps : plan.maps = edit.maps (sourceResult .video edit.videoPath)
      (sourceResult .audio (edit.keptPath stages source)))
    (hsilent : plan.options.noAudio = edit.sound.isMuted) :
    plan.outputs =
      some (.through (Label.raw 0 .video) edit.videoPath :: edit.soundSignals stages source) := by
  by_cases hfree : edit.LeavesSource edit.videoPath (edit.keptPath stages source)
  · -- Nothing is mapped, and the engine takes what the source has.
    rw [outputs, hmaps, maps_of_leavesSource hfree, hsilent,
      soundSignals_of_leavesSource hsound hfree, hfree.1]
    rfl
  · obtain ⟨signals, hsignals, hvideo, haudio, hraw⟩ := signals?_sourceGraph hgraph
    have hside := @signal?_sideMap _ _ .video _ hvideo (hraw 0 .video) (!edit.replacesSound)
    have hheard := mapM_soundMaps haudio hraw
    rw [outputs, hmaps, maps_of_not_leavesSource hsound keptPath_of_not_original hfree, hsignals]
    simp [hside, hheard]

/-- The plan of an edit plays the two sides of the source behind their filters. -/
structure Plays (edit : Edit α) (clip : Clip) (stages : List α) (source : α) (plan : Plan α) :
    Prop where
  /-- The source comes first, and then the track that replaces its sound. -/
  clips : plan.clips = clip :: edit.sound.tracks
  /-- What goes into the output is the video and then the sound. -/
  outputs : plan.outputs =
    some (.through (Label.raw 0 .video) edit.videoPath :: edit.soundSignals stages source)
  /-- A side without filters has no chain. -/
  chains : plan.chains =
    sourceChains .video edit.videoPath ++ sourceChains .audio (edit.keptPath stages source)
  /-- Only an edit that leaves the source as it is has no maps. -/
  unmapped : plan.maps = [] ↔ edit.LeavesSource edit.videoPath (edit.keptPath stages source)

/-- The parts of an edit play its source. -/
theorem plays_parts (hsound : edit.sound.check = .ok ()) (stages : List α) (source : α)
    (length : Option α) :
    Plays edit clip stages source
      ⟨edit.inputs clip, sourceGraph edit.videoPath (edit.keptPath stages source),
        edit.maps (sourceResult .video edit.videoPath)
          (sourceResult .audio (edit.keptPath stages source)),
        edit.options length, target, length⟩ where
  clips := edit.clips_inputs clip
  outputs := by
    refine outputs_edit hsound rfl rfl ?_
    unfold options
    cases edit.sound <;> rfl
  chains := chains_sourceGraph rfl
  unmapped := by
    refine ⟨fun hnone => ?_, maps_of_leavesSource⟩
    by_contra hfree
    have hnone : edit.maps _ _ = [] := hnone
    rw [maps_of_not_leavesSource hsound keptPath_of_not_original hfree] at hnone
    cases hnone

/-- **What a custom edit plays.**  Every plan of an edit plays the video of the source
behind the filters of the video, and with the original sound that of the source behind the
filters of the sound.  The stages of the tempo are those of the speed, and the length of
the source is the one that the probe gave if the edit depends on it. -/
theorem settle_plays {probe : Option (Probe α)}
    (h : (edit.plan clip target).settle probe = .ok plan) :
    ∃ stages source,
      (edit.changesSpeed = true → edit.sound = .original →
        Tempo.stages edit.speed = .ok stages) ∧
      (edit.needsLength = true → Measures probe clip source) ∧
      Plays edit clip stages source plan := by
  obtain ⟨hcheck, length, hcompose, hlength⟩ := of_settle h
  obtain ⟨video, audio, hvideo, haudio, rfl⟩ := of_compose hcompose
  obtain rfl := eq_videoPath hvideo
  obtain ⟨-, -, -, -, hsound⟩ := of_check hcheck
  cases hneeds : edit.needsLength with
  | true =>
      obtain ⟨source, hmeasures, rfl⟩ := hlength hneeds
      obtain ⟨stages, hstages, rfl⟩ := eq_keptPath (fun _ => rfl) haudio
      exact ⟨stages, source, hstages, fun _ => hmeasures, plays_parts hsound stages source _⟩
  | false =>
      -- The length of the source shows in no filter.
      obtain ⟨stages, hstages, rfl⟩ := @eq_keptPath _ _ edit audio length Arithmetic.zero
        (fun hlong => absurd hlong (by simp [hneeds])) haudio
      exact ⟨stages, _, hstages, nofun, plays_parts hsound stages _ _⟩

/-- An edit that only fades the sound out. -/
def fading : Edit Number :=
  { speed := .float 1.0, audioFilters := ["highpass=f=200"], volume := .float 1.0,
    fadeIn := .float 0.0, fadeOut := .float 3.0 }

/-- The video is mapped although it has no filters. -/
theorem settle_plays_fading :
    ∃ plan, (fading.plan ⟨"a", "/a"⟩ "out.mp4").settle (some fun _ => .ok (some (.float 10.0))) =
        .ok plan ∧
      plan.maps = [.ofStream 0 .video none true, .ofLabel audioLabel] ∧
      ∃ stages source, Plays fading ⟨"a", "/a"⟩ stages source plan := by
  let settled := (fading.plan ⟨"a", "/a"⟩ "out.mp4").settle (some fun _ => .ok (some (.float 10.0)))
  have hmaps : settled.toOption.map (·.maps) =
      some [.ofStream 0 .video none true, .ofLabel audioLabel] := by decide +kernel
  cases hplan : settled with
  | error failure =>
      rw [hplan] at hmaps
      cases hmaps
  | ok plan =>
      rw [hplan] at hmaps
      obtain ⟨stages, source, -, -, hplays⟩ := settle_plays hplan
      exact ⟨plan, hplan, Option.some.inj hmaps, stages, source, hplays⟩

end Edit

end Montage
