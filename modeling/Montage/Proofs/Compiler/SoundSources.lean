import Montage.Proofs.Compiler.Plans
import Montage.Proofs.Plan.SoundSources

/-!
# The sound that a request asks for

Where the sound of a compiled plan comes from is decided by the operation, and for a custom
edit and a join by two fields of the request: a track that replaces the sound counts more
than muting, and without either the sound is the one of the sources
(`soundSources_of_compile`).
-/

namespace Montage.Compiler

variable {c : Compiler} {request : Request} {host : Host} {plan : Plan Number}

/-- The sound of `count` sources as a request chooses it: the one of a track, which is then
the input behind the sources, or none, or the one of every source. -/
def TakesChosenSound (c : Compiler) (request : Request) (host : Host) (count : Nat)
    (plan : Plan Number) : Prop :=
  if (request.field ["customAudio"]).isBlank then
    plan.clips.length = count ∧
      ∃ mute, Request.switch (request.field ["mute"]) "mute" false = .ok mute ∧
        plan.soundSources = if mute then [] else (List.range count).map fun n : Nat => (n : Int)
  else
    plan.clips.length = count + 1 ∧ plan.soundSources = [(count : Int)] ∧
      (∃ track, Resolver.resolve host c.directories (request.field ["customAudio"]) = .ok track ∧
        plan.clips[count]? = some track) ∧
      ∀ label ∈ Plan.reads plan.graph, Label.isSound label = false

/-- The sound that an operation takes. -/
def TakesSound (c : Compiler) (request : Request) (host : Host) (plan : Plan Number) :
    Operation → Prop
  | .convert | .speed => plan.soundSources = [0]
  | .mute => plan.soundSources = []
  | .addAudio => plan.soundSources = [1]
  | .custom => TakesChosenSound c request host 1 plan
  | .stitch => TakesChosenSound c request host (joinedNames request).length plan

/-- A plan that takes the sound as it is told takes the one that the request chooses. -/
theorem takesChosenSound {count : Nat} {clips : List Clip} {sound : Option Sound} {mute : Bool}
    (hsound : Replaces c request host "customAudio" true sound)
    (hmute : Request.switch (request.field ["mute"]) "mute" false = .ok mute)
    (hcount : clips.length = count)
    (hclips : plan.clips = clips ++ (chooseSound sound mute).tracks)
    (hsources : plan.soundSources = (chooseSound sound mute).sources count)
    (hsilent : (chooseSound sound mute).isOriginal = false →
      ∀ label ∈ Plan.reads plan.graph, Label.isSound label = false) :
    TakesChosenSound c request host count plan := by
  unfold TakesChosenSound
  rcases hsound with ⟨hblank, rfl⟩ | ⟨hgiven, track, temporary, htrack, -, rfl⟩
  · rw [if_pos hblank, hclips, hsources]
    refine ⟨?_, mute, hmute, ?_⟩
    · cases mute <;> simpa [chooseSound, Sound.tracks] using hcount
    · cases mute <;> rfl
  · rw [if_neg (by simp [hgiven]), hclips, hsources]
    refine ⟨?_, rfl, ⟨track, htrack, ?_⟩, hsilent rfl⟩
    · simp [chooseSound, Sound.tracks, hcount]
    · simp [chooseSound, Sound.tracks, ← hcount]

/-- **Where the sound of a compiled plan comes from.** -/
theorem soundSources_of_compile {probe : Clip → Action (Option Number)}
    (h : (c.compile request probe).result host = .ok plan) :
    ∃ operation, Operation.ofValue (request.field ["operation"]) = .ok operation ∧
      TakesSound c request host plan operation := by
  obtain ⟨operation, hoperation, hmade⟩ := made_of_compile h
  refine ⟨operation, hoperation, ?_⟩
  cases hmade with
  | convert | mute | addAudio => rfl
  | speed => exact Plan.soundSources_changeSpeed _ _ _ _ _
  | @custom clip sound edit target length video audio hclip hsound hedit hvideo haudio =>
      obtain ⟨mute, speed, fadeOut, hchosen, -, -, -, hmute⟩ := of_readEdit hedit
      have hkept := edit.keptChain_ends length
      rw [haudio] at hkept
      have hcheck : edit.sound.check = .ok () := by
        rw [hchosen]
        exact hsound.check mute
      have hsources := edit.soundSources_edit clip video audio length target length hkept hcheck
      rw [hchosen] at hsources
      refine takesChosenSound hsound hmute (show [clip].length = 1 from rfl) ?_ hsources ?_
      · rw [Plan.clips, Edit.clips_inputs, hchosen]
        rfl
      · -- An edit that gives up the sound of its clip has no chain for it.
        intro hreplaced label hlabel
        rw [← hchosen] at hreplaced
        obtain rfl := hkept hreplaced
        have hnone := Plan.sounds_sourceGraph video []
        rw [List.isEmpty_nil, if_pos rfl, List.filter_eq_nil_iff] at hnone
        simpa using hnone label hlabel
  | @stitch clips resize mute sound target format hclips hmute hsound hcount =>
      have hlength : clips.length = (joinedNames request).length := by
        rw [length_of_resolveAll hclips, List.length_map]
      have hcheck := hsound.check mute
      have hplays := Plan.plays_join (α := Number) clips resize (chooseSound sound mute) target
        format none
      have hsources := Plan.soundSources_join (α := Number) clips (Resize.filtersOf resize)
        (chooseSound sound mute) format target none hcheck hcount
      rw [TakesSound, ← hlength]
      exact takesChosenSound hsound hmute rfl (Plan.clips_joinInputs _ _) hsources hplays.silent

/-- A machine with two clips among the uploads. -/
def pairHost : Host :=
  { files := ⟨[(["work".toList], .directory), (["work".toList, "uploads".toList], .directory),
      (["work".toList, "uploads".toList, "a.mp4".toList], .file "" 0),
      (["work".toList, "uploads".toList, "b.mp4".toList], .file "" 0)]⟩ }

/-- The request to join the clips, to mute them, and to play the sound of the first. -/
def pairRequest : Request :=
  [(.text "operation", .text "stitch"), (.text "videos", .list [.text "a.mp4", .text "b.mp4"]),
    (.text "mute", .bool true), (.text "customAudio", .text "a.mp4"),
    (.text "output", .text "out.mp4")]

/-- The track counts more than muting, also if it is one of the clips. -/
theorem soundSources_of_compile_pair :
    ∃ plan, ((⟨{}, ["uploads"]⟩ : Compiler).compile pairRequest fun _ => pure none).result
        pairHost = .ok plan ∧
      plan.soundSources = [2] := by
  cases hcompile : ((⟨{}, ["uploads"]⟩ : Compiler).compile pairRequest
      fun _ => pure none).result pairHost with
  | error failure => cases hcompile
  | ok plan =>
      obtain ⟨operation, hoperation, htakes⟩ := soundSources_of_compile hcompile
      obtain rfl : Operation.stitch = operation := Except.ok.inj hoperation
      exact ⟨plan, rfl, htakes.2.1⟩

end Montage.Compiler
