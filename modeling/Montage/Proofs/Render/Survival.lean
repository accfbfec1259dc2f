import Montage.Proofs.Compiler.Plans
import Montage.Proofs.Render.Cleanup

/-!
# What survives the cleaning

An input is marked as temporary, but what is removed in the end is the file at its path.
Nothing compares that path with the other inputs or with the output.  A compiled plan has
one temporary input at most (`length_temporaryPaths_of_made`), so it can be said exactly which
files survive: those to which the removal of the track does not sever the way
(`survives_iff`).  A track that is also the source, or the output, takes them away.
-/

namespace Montage.Render

open Compiler

variable {c : Compiler} {request : Request}

/-- Only the track that replaces the sound can be temporary. -/
theorem length_temporaryPaths_of_made {host : Host} {operation : Operation} {plan : Plan Number}
    (h : Made c request host operation plan) : plan.temporaryPaths.length ≤ 1 := by
  have hmarked (inputs : List Input) (hinputs : inputs.length ≤ 1) :
      (inputs.filter (·.temporary)).length ≤ 1 :=
    Nat.le_trans (List.length_filter_le _ inputs) hinputs
  -- What stands before the track is a source, and no source is marked.
  have hsources (clips : List Clip) (inputs : List Input) (hinputs : inputs.length ≤ 1) :
      (((clips.map fun clip => ({ clip } : Input)) ++ inputs).filter (·.temporary)).length ≤ 1 := by
    have hnone : (clips.map fun clip => ({ clip } : Input)).filter (·.temporary) = [] :=
      List.filter_eq_nil_iff.2 (by simp)
    rw [List.filter_append, hnone]
    exact hmarked inputs hinputs
  rw [Plan.temporaryPaths, List.length_map]
  cases h with
  | convert | speed | mute => exact hsources [_] [] (by simp)
  | addAudio => exact hsources [_] [_] (by simp)
  | @custom clip sound edit =>
      cases hsound : edit.sound with
      | original | muted | unknown =>
          simp [Edit.inputs, hsound]
      | replaced =>
          simp only [Edit.inputs, hsound]
          exact hsources [_] [_] (by simp)
  | @stitch clips resize mute sound =>
      refine hsources _ _ ?_
      cases chooseSound sound mute <;> simp [Plan.joinTrack]

/-- **Which files survive a render.**  The path that is returned leads to a file when the
engine is done.  That file, like every other, is there in the end exactly if the way to it
is not severed by the removal of a temporary input. -/
theorem survives_iff {probe : Clip → Action (Option Number)} {config : Config}
    {host compiled after : Host} {plan : Plan Number} {path : String}
    (hcompile : (c.compile request probe).runOn host = (.ok plan, compiled))
    (hrender : (render plan config).runOn compiled = (.ok path, after)) :
    path = plan.target ∧ (finished plan compiled).isFile compiled.place path = true ∧
      ∀ survivor, (finished plan compiled).isFile compiled.place survivor = true →
        (after.isFile survivor = true ↔ ∀ track ∈ plan.temporaryPaths,
          ¬ (finished plan compiled).Severs compiled.place track survivor) := by
  have hresult : (c.compile request probe).result host = .ok plan := by
    rw [Action.result, hcompile]
  obtain ⟨operation, -, hmade⟩ := made_of_compile hresult
  have hmarked := length_temporaryPaths_of_made hmade
  have hleaves := render_leaves plan config compiled
  rw [Action.Leaves, hrender] at hleaves
  obtain ⟨hpath, hdirectory, -, -, houtput⟩ := hleaves
  obtain ⟨hwritten, hfiles⟩ := houtput path rfl
  obtain rfl := hpath path rfl
  refine ⟨rfl, hwritten, fun survivor hsurvivor => ?_⟩
  have hplace : after.place = compiled.place := place_congr hdirectory
  rw [Host.isFile, hplace, hfiles]
  -- With one path at most, no removal can depend on another one before it.
  rcases htracks : plan.temporaryPaths with _ | ⟨track, _ | ⟨second, rest⟩⟩
  · simpa [FileTree.clear] using hsurvivor
  · rw [FileTree.isFile_clear_singleton]
    simp [hsurvivor]
  · simp [htracks] at hmarked

/-- A machine with one clip among the uploads, whose engine writes the output. -/
def mixHost : Host :=
  { files := ⟨[(["work".toList], .directory), (["work".toList, "uploads".toList], .directory),
      (["work".toList, "uploads".toList, "a.mp4".toList], .file "" 0)]⟩
    engine := { writes := ["out.mp4"] } }

/-- The request to play that clip with its own sound, and to remove the track
afterwards. -/
def mixRequest : Request :=
  [(.text "operation", .text "add-audio"), (.text "videoFilename", .text "a.mp4"),
    (.text "audio", .text "a.mp4"), (.text "cleanupAudio", .bool true),
    (.text "output", .text "out.mp4")]

/-- The plan of that request. -/
def mixPlan : Plan Number :=
  ⟨[{ clip := ⟨"a.mp4", "uploads/a.mp4"⟩ },
      { clip := ⟨"a.mp4", "uploads/a.mp4"⟩, temporary := true }], none,
    [.ofStream 0 .video (some 0) false, .ofStream 1 .audio (some 0) false],
    { videoCodec := some "copy", shortest := true }, "out.mp4", none⟩

/-- The source is not temporary, but it is the same file as the track. -/
theorem survives_iff_mix :
    mixPlan.inputs.map (·.temporary) = [false, true] ∧
      ((render mixPlan { quiet := true }).runOn mixHost).2.isFile "uploads/a.mp4" = false := by
  let c : Compiler := ⟨{ quiet := true }, ["uploads"]⟩
  have hcompile : (c.compile mixRequest fun _ => pure none).runOn mixHost =
      (.ok mixPlan, mixHost) := rfl
  have hrender : (render mixPlan { quiet := true }).runOn mixHost =
      (.ok "out.mp4", ((render mixPlan { quiet := true }).runOn mixHost).2) :=
    Prod.ext rfl rfl
  obtain ⟨-, -, hsurvives⟩ := survives_iff hcompile hrender
  have hsource : (finished mixPlan mixHost).isFile mixHost.place "uploads/a.mp4" = true := rfl
  refine ⟨rfl, ?_⟩
  rw [Bool.eq_false_iff, Ne, hsurvives _ hsource]
  intro hspared
  exact hspared "uploads/a.mp4" (by decide) (FileTree.severs_self hsource)

end Montage.Render
