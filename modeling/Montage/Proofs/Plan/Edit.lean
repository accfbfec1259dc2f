import Montage.Plan.Edit
import Montage.Proofs.Plan.Recipes

/-!
# The plans of custom edits

A custom edit draws the graph of a source (`sourceChains`), so what is special to it is
the choice of the maps and of the bound on an endless track.  The choice is right for
every combination of filters and sound (`chosen_maps`); the bound is there because an
edit with an endless track asks for the length first (`compose_ends`).
-/

namespace Montage.Edit

open Plan

variable {α : Type}

/-- A chain that an edit adds is a chain from the source, or none without filters. -/
theorem addChain_noted (chains : List (Node α)) (stream : Stream) (filters : List (Filter α))
    (hnew : labelOf stream ∉ Graph.produced chains) :
    addChain (Builder.noted chains) stream filters (labelOf stream) =
      .ok (Builder.noted (chains ++ sourceChains stream filters), sourceResult stream filters) := by
  by_cases hfilters : filters = []
  · simp [addChain, sourceChains, sourceResult, hfilters]
  · have hchain := chain_sourceChain chains stream hfilters hnew
    simp [addChain, hfilters, hchain, sourceResult]

/-- The maps of an edit are chosen among what there is: the results of its graph, the
source, and the track that replaces the sound. -/
theorem chosen_maps [Arithmetic α] (edit : Edit α) (clip : Clip) {graph : Option (Graph α)}
    {video audio : Option String} (hvideo : resultOf graph .video = video)
    (haudio : resultOf graph .audio = audio) (hnone : video = none → audio = none → graph = none)
    (hkept : edit.sound.isOriginal = false → audio = none) :
    ChoosesAll (edit.inputs clip).length graph (edit.maps video audio) := by
  unfold maps inputs replacesSound
  -- Only the original sound can be filtered, so that otherwise the graph has no sound.
  cases hsound : edit.sound with
  | original =>
      cases video with
      | none =>
          cases audio with
          | none => exact .nothing (hnone rfl rfl)
          | some a => exact .both (.source 0 _ _ hvideo (by simp)) (.result a haudio)
      | some v =>
          cases audio with
          | none => exact .both (.result v hvideo) (.source 0 _ _ haudio (by simp))
          | some a => exact .both (.result v hvideo) (.result a haudio)
  | muted =>
      obtain rfl : audio = none := hkept (by rw [hsound]; rfl)
      cases video with
      | none => exact .nothing (hnone rfl rfl)
      | some v => exact .video (.result v hvideo) haudio
  | replaced track loop temporary =>
      obtain rfl : audio = none := hkept (by rw [hsound]; rfl)
      cases video with
      | none =>
          exact .both (.source 0 _ _ hvideo (by simp)) (.source 1 _ _ haudio (by simp))
      | some v => exact .both (.result v hvideo) (.source 1 _ _ haudio (by simp))
  | unknown shown =>
      obtain rfl : audio = none := hkept (by rw [hsound]; rfl)
      cases video with
      | none => exact .nothing (hnone rfl rfl)
      | some v => exact .video (.result v hvideo) haudio

/-- An endless track is bounded by the length of the output, a track that is played
once ends with the shortest stream. -/
theorem bounded_options (edit : Edit α) [Arithmetic α] (clip : Clip) {length : Option α}
    (hlength : edit.needsLength = true → length.isSome = true) :
    ∀ input ∈ edit.inputs clip, input.loop.isSome = true →
      (edit.options length).shortest = true ∨ (edit.options length).duration.isSome = true := by
  intro input hinput hloop
  unfold inputs at hinput
  unfold options
  cases hsound : edit.sound with
  | replaced track loop temporary =>
      cases loop with
      | true => exact .inr (hlength (by simp [needsLength, hsound]))
      | false => exact .inl rfl
  | original | muted | unknown shown =>
      obtain rfl : input = { clip } := by simpa [hsound] using hinput
      cases hloop

variable [Arithmetic α]

/-- The failures of an edit whose settings are in range: its speed fails, or it fades
out over a length that cannot be computed with. -/
def SettingFails (edit : Edit α) (failure : Failure) : Prop :=
  SpeedFails edit.speed failure ∨
    (failure = .fault .tooLarge ∧ Arithmetic.fits edit.fadeOut = false)

theorem SettingFails.isCheck_eq_false {edit : Edit α} {failure : Failure}
    (h : edit.SettingFails failure) : failure.isCheck = false := by
  rcases h with h | ⟨rfl, -⟩
  · exact h.isCheck_eq_false
  · rfl

theorem videoChain_ends (edit : Edit α) :
    Ends (fun _ => True) edit.SettingFails edit.videoChain := by
  unfold videoChain
  split
  · have hretiming : Ends (fun _ => True) edit.SettingFails
        ((Tempo.timeFilter edit.speed).map fun filter => [filter]) :=
      ((timeFilter_ends edit.speed).mono (fun _ h => h) fun _ => .inl).map fun _ _ => trivial
    exact hretiming.bind fun _ _ => trivial
  · trivial

theorem audioChain_ends (edit : Edit α) (length : Option α) :
    Ends (fun _ => True) edit.SettingFails (edit.audioChain length) := by
  unfold audioChain
  extract_lets volume fadeIn rest
  have hrest (tempo : List (Filter α)) : Ends (fun _ => True) edit.SettingFails (rest tempo) := by
    cases length with
    | none => trivial
    | some length =>
        simp only [rest]
        split
        · trivial
        · split
          · next hfits => exact .inr ⟨rfl, by simpa using hfits⟩
          · trivial
  split
  · exact ((tempo_ends edit.speed).mono (fun _ h => h) fun _ => .inl).bind fun tempo _ =>
      hrest tempo
  · exact hrest []

/-- The parts of an edit are wired, given its filters and the length of the output. -/
theorem wired_parts (edit : Edit α) (clip : Clip) {length : Option α}
    (video audio : List (Filter α)) (hkept : edit.sound.isOriginal = false → audio = [])
    (hlength : edit.needsLength = true → length.isSome = true) :
    Wired (edit.inputs clip) (sourceGraph video audio)
      (edit.maps (sourceResult .video video) (sourceResult .audio audio))
      (edit.options length) := by
  refine wired_sourceGraph video audio ?_ ?_ (edit.bounded_options clip hlength)
  · unfold inputs
    split <;> simp
  · refine edit.chosen_maps clip (resultOf_sourceGraph_video video audio)
      (resultOf_sourceGraph_audio video audio) ?_ ?_
    · cases video <;> cases audio <;> simp [sourceResult, sourceGraph]
    · intro hsound
      simp [sourceResult, hkept hsound]

/-- The filters of the sound, which are none unless the sound is kept. -/
def keptChain (edit : Edit α) (length : Option α) : Except Failure (List (Filter α)) :=
  if edit.sound.isOriginal then edit.audioChain length else .ok []

theorem keptChain_ends (edit : Edit α) (length : Option α) :
    Ends (fun audio => edit.sound.isOriginal = false → audio = []) edit.SettingFails
      (edit.keptChain length) := by
  unfold keptChain
  cases edit.sound.isOriginal with
  | true => exact (edit.audioChain_ends length).mono (fun _ _ => nofun) fun _ h => h
  | false => exact fun _ => rfl

/-- What an edit hands to the assembler, once its filters are known: the builder takes the
graph of a source, and without any filter it is not asked for one. -/
theorem compose_eq (edit : Edit α) (clip : Clip) (target : String) (length : Option α) :
    edit.compose clip target length = (do
      let video ← edit.videoChain
      let audio ← edit.keptChain length
      assemble (edit.inputs clip) (sourceGraph video audio)
        (edit.maps (sourceResult .video video) (sourceResult .audio audio))
        (edit.options length) target length) := by
  unfold compose
  refine bind_congr fun video => ?_
  extract_lets rest
  have hrest (audio : List (Filter α)) :
      rest audio = assemble (edit.inputs clip) (sourceGraph video audio)
        (edit.maps (sourceResult .video video) (sourceResult .audio audio))
        (edit.options length) target length := by
    have hvideo := addChain_noted [] .video video (by simp [Graph.produced])
    have haudio := addChain_noted _ .audio audio (labelOf_audio_not_mem video)
    refine (Ends.ok_bind hvideo).trans ((Ends.ok_bind haudio).trans ?_)
    by_cases hnone : video = [] ∧ audio = []
    · obtain ⟨rfl, rfl⟩ := hnone
      rfl
    · have hsome : video ≠ [] ∨ audio ≠ [] := not_and_or.1 hnone
      have hgraph : sourceGraph video audio = some _ := if_neg (by simpa using hnone)
      have hbuilder : (Builder.noted
          (sourceChains .video video ++ sourceChains .audio audio)).isEmpty = false := by
        rcases hsome with hsome | hsome <;>
          simp [Builder.isEmpty, Builder.noted, sourceChains, hsome]
      simp only [hbuilder, hgraph, build_sourceChains video audio hsome]
      rfl
  unfold keptChain
  cases edit.sound.isOriginal with
  | true => exact bind_congr hrest
  | false => exact hrest []

/-- The parts of an edit come out as a closed plan once the length of the output is
known, if the edit depends on it. -/
theorem compose_ends (edit : Edit α) (clip : Clip) (target : String) {length : Option α}
    (hlength : edit.needsLength = true → length.isSome = true) :
    Ends Closed (fun failure => Rejection 1 failure ∨ edit.SettingFails failure)
      (edit.compose clip target length) := by
  have hcount : 1 ≤ (edit.inputs clip).length := by
    unfold inputs
    split <;> simp
  rw [compose_eq]
  refine (edit.videoChain_ends.mono (fun _ h => h) fun _ => .inr).bind fun video _ => ?_
  refine ((edit.keptChain_ends length).mono (fun _ h => h) fun _ => .inr).bind fun audio hkept => ?_
  exact ((edit.wired_parts clip video audio hkept hlength).assemble_ends
    (numbered_sourceGraph video audio) hcount target length).mono (fun _ h => h) fun _ => .inl

/-- Settings are refused as fields. -/
theorem check_ends (edit : Edit α) :
    Ends (fun _ => True) (fun failure => ∃ name cause, failure = .field name cause) edit.check := by
  unfold check
  iterate 4 refine Ends.guard (fun _ => ⟨_, _, rfl⟩) fun _ => ?_
  cases edit.sound with
  | original | muted | replaced => trivial
  | unknown shown => exact ⟨_, _, rfl⟩

/-- An answer of a probe is refused as such, or cannot be computed with. -/
theorem usableLength_ends (clip : Clip) (answer : Option α) :
    Ends (fun _ => True)
      (fun failure => (∃ cause, failure = .probe clip.path cause) ∨
        (failure = .fault .tooLarge ∧ ∃ d ∈ answer, Arithmetic.fits d = false))
      (usableLength clip answer) := by
  cases answer with
  | none => exact .inl ⟨_, rfl⟩
  | some d =>
      simp only [usableLength]
      split
      · exact .inl ⟨_, rfl⟩
      · split
        · next hfits => exact .inr ⟨rfl, d, rfl, by simpa using hfits⟩
        · trivial

/-- **A custom edit is settled to a closed plan.**  What looks like a failed check can
only be what the probe itself failed with. -/
theorem settle_ends (edit : Edit α) (clip : Clip) (target : String) (probe : Option (Probe α)) :
    Ends Closed
      (fun failure => failure.isCheck = false ∨ ∃ ask, probe = some ask ∧ ask clip = .error failure)
      ((edit.plan clip target).settle probe) := by
  have hcompose (length : Option α) (hlength : edit.needsLength = true → length.isSome = true) :
      Ends Closed
        (fun failure => failure.isCheck = false ∨
          ∃ ask, probe = some ask ∧ ask clip = .error failure)
        (edit.compose clip target length) := by
    refine (edit.compose_ends clip target hlength).mono (fun _ h => h) ?_
    rintro failure (hrejected | hsetting)
    · exact .inl hrejected.isCheck_eq_false
    · exact .inl hsetting.isCheck_eq_false
  have hcheck := edit.check_ends
  unfold plan
  cases hresult : edit.check with
  | error failure =>
      rw [hresult] at hcheck
      obtain ⟨name, cause, rfl⟩ := hcheck
      exact .inl rfl
  | ok =>
      cases hlength : edit.needsLength with
      | false => exact hcompose none (by simp [hlength])
      | true =>
          cases probe with
          | none => exact .inl rfl
          | some ask =>
              have hasked : Ends (fun _ => True) (fun failure => ask clip = .error failure)
                  (ask clip) := by
                cases ask clip <;> trivial
              refine Ends.bind (hasked.mono (fun _ h => h) fun _ h => .inr ⟨ask, rfl, h⟩)
                fun answer _ => ?_
              refine Ends.bind ((usableLength_ends clip answer).mono (fun _ h => h) ?_)
                fun source _ => hcompose _ fun _ => rfl
              rintro failure (⟨cause, rfl⟩ | ⟨rfl, -⟩)
              · exact .inl rfl
              · exact .inl rfl

end Montage.Edit
