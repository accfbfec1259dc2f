import Montage.Proofs.Compiler.Handlers
import Montage.Proofs.Plan.Parts

/-!
# The plans of requests

What a request compiles to, said once for all operations: `Made` gives the plan of each
operation with all its parts, together with the clips that were found and the settings
that were read.  Every plan that is compiled is made in this way (`made_of_compile`).
-/

namespace Montage.Compiler

/-- The plan that an operation makes of what it finds and reads. -/
inductive Made (c : Compiler) (request : Request) (host : Host) : Operation → Plan Number → Prop
  | convert {clip : Clip} {target format : String}
    (hclip : Resolver.resolve host c.directories (request.field ["filename"]) = .ok clip) :
    Made c request host .convert ⟨[{ clip }], none, [], { format := some format }, target, none⟩
  | speed {clip : Clip} {target : String} {ratio : Float} {timing : Filter Number}
    {tempo : List (Filter Number)}
    (hclip : Resolver.resolve host c.directories (request.field ["filename"]) = .ok clip)
    (htiming : Tempo.timeFilter (.float ratio) = .ok timing)
    (htempo : Tempo.filters (.float ratio) = .ok tempo) :
    Made c request host .speed
      ⟨[{ clip }], Plan.sourceGraph [timing] tempo, Plan.speedMaps tempo, {}, target, none⟩
  | mute {clip : Clip} {target : String}
    (hclip : Resolver.resolve host c.directories (request.field ["filename"]) = .ok clip) :
    Made c request host .mute ⟨[{ clip }], none, [], { noAudio := true }, target, none⟩
  | addAudio {clip track : Clip} {temporary : Bool} {target : String}
    (hclip : Resolver.resolve host c.directories
      (request.field ["videoFilename", "video_filename"]) = .ok clip)
    (htrack : Resolver.resolve host c.directories (request.field ["audio"]) = .ok track) :
    Made c request host .addAudio
      ⟨[{ clip }, { clip := track, temporary }], none,
        [.ofStream 0 .video (some 0) false, .ofStream 1 .audio (some 0) false],
        { videoCodec := some "copy", shortest := true }, target, none⟩
  | custom {clip : Clip} {sound : Option Sound} {edit : Edit Number} {target : String}
    {length : Option Number} {video audio : List (Filter Number)}
    (hclip : Resolver.resolve host c.directories (request.field ["filename"]) = .ok clip)
    (hsound : Replaces c request host "customAudio" true sound)
    (hedit : readEdit request sound = .ok edit) (hvideo : edit.videoChain = .ok video)
    (haudio : edit.keptChain length = .ok audio) :
    Made c request host .custom
      ⟨edit.inputs clip, Plan.sourceGraph video audio,
        edit.maps (Plan.sourceResult .video video) (Plan.sourceResult .audio audio),
        edit.options length, target, length⟩
  | stitch {clips : List Clip} {resize : Option Resize} {mute : Bool} {sound : Option Sound}
    {target : String} {format : Option String}
    (hclips : Resolver.resolveAll host c.directories ((joinedNames request).map .text) =
      .ok clips)
    (hmute : Request.switch (request.field ["mute"]) "mute" false = .ok mute)
    (hsound : Replaces c request host "customAudio" true sound)
    (hcount : clips.length ≤ Decimal.unreadable) :
    Made c request host .stitch
      ⟨Plan.joinInputs clips (chooseSound sound mute),
        some (Plan.joinGraph (Resize.filtersOf resize) (chooseSound sound mute).isOriginal
          clips.length),
        Plan.joinMaps (chooseSound sound mute) clips.length,
        Plan.joinOptions (chooseSound sound mute) format, target, none⟩

variable {c : Compiler} {request : Request} {host : Host} {plan : Plan Number}

/-- What an operation settles on is the plan of its handler. -/
theorem eq_of_settled {action : Action (Plan Number)} {draft : Draft Number}
    (h : (settled action).result host = .ok draft) (hplan : draft.Becomes plan) :
    action.result host = .ok plan := by
  obtain ⟨made, after, haction, h⟩ := Action.of_result_bind h
  cases h
  cases hplan
  rw [Action.result, haction]

/-- **Every plan of an operation is made as described.** -/
theorem made_of_perform {operation : Operation} {draft : Draft Number}
    (h : (c.perform request operation).result host = .ok draft) (hplan : draft.Becomes plan) :
    Made c request host operation plan := by
  cases operation with
  | convert =>
      obtain ⟨clip, target, format, hclip, hmade⟩ :=
        (convert_follows request).of_ok (eq_of_settled h hplan)
      rw [Plan.of_assemble hmade.symm]
      exact .convert hclip
  | speed =>
      obtain ⟨clip, target, ratio, hclip, -, hmade⟩ :=
        (changeSpeed_follows request).of_ok (eq_of_settled h hplan)
      obtain ⟨timing, tempo, htiming, htempo, rfl⟩ := Plan.of_changeSpeed hmade.symm
      exact .speed hclip htiming htempo
  | mute =>
      obtain ⟨clip, target, hclip, hmade⟩ :=
        (mute_follows request).of_ok (eq_of_settled h hplan)
      rw [Plan.of_assemble hmade.symm]
      exact .mute hclip
  | addAudio =>
      obtain ⟨clip, track, temporary, target, hclip, htrack, hmade⟩ :=
        (addAudio_follows request).of_ok (eq_of_settled h hplan)
      rw [Plan.of_assemble hmade.symm]
      exact .addAudio hclip htrack
  | custom =>
      -- The draft is what the handler ends in: the length is asked for behind it.
      have hdrafted : (c.custom request >>= pure).result host = .ok draft := by rwa [bind_pure]
      obtain ⟨clip, sound, edit, target, printed, hclip, hsound, hedit, hdraft⟩ :=
        (custom_follows request pure).of_ok hdrafted
      cases hdraft
      obtain ⟨-, length, hcomposed⟩ := Edit.of_becomes hplan
      obtain ⟨video, audio, hvideo, haudio, rfl⟩ := Edit.of_compose hcomposed
      exact .custom hclip hsound hedit hvideo haudio
  | stitch =>
      obtain ⟨clips, resize, mute, sound, target, format, extension, hclips, hmute, hsound, -,
        hmade⟩ := (stitch_follows request).of_ok (eq_of_settled h hplan)
      obtain ⟨hcount, rfl⟩ := Plan.of_join hmade.symm
      exact .stitch hclips hmute hsound hcount

/-- A plan is one that the draft of its operation becomes. -/
theorem draft_of_compile {probe : Clip → Action (Option Number)}
    (h : (c.compile request probe).result host = .ok plan) :
    ∃ operation draft, Operation.ofValue (request.field ["operation"]) = .ok operation ∧
      (c.perform request operation).result host = .ok draft ∧ draft.Becomes plan := by
  obtain ⟨draft, after, hdraft, hanswer⟩ := Action.of_result_bind h
  have hperform : (c.draft request).result host = .ok draft := by rw [Action.result, hdraft]
  rw [Compiler.draft, Action.result_bind (Action.reads_lift _)] at hperform
  obtain ⟨operation, hoperation, hperform⟩ := Ends.of_bind_ok hperform
  refine ⟨operation, draft, hoperation, hperform, ?_⟩
  cases draft with
  | settled outcome => exact hanswer
  | awaiting clip resume =>
      obtain ⟨answer, later, -, h⟩ := Action.of_result_bind hanswer
      obtain ⟨length, last, -, h⟩ := Action.of_result_bind h
      exact ⟨length, h⟩

/-- Every compiled plan is made by the operation that the request names. -/
theorem made_of_compile {probe : Clip → Action (Option Number)}
    (h : (c.compile request probe).result host = .ok plan) :
    ∃ operation, Operation.ofValue (request.field ["operation"]) = .ok operation ∧
      Made c request host operation plan := by
  obtain ⟨operation, draft, hoperation, hdraft, hplan⟩ := draft_of_compile h
  exact ⟨operation, hoperation, made_of_perform hdraft hplan⟩

end Montage.Compiler
