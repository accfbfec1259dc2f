import Montage.Proofs.Plan.Edit
import Montage.Proofs.Plan.Join

/-!
# The parts of plans

What a planner hands to the assembler is what the plan holds, so a plan that is made is
known with all its parts: the inputs are the clips of the call in order, and after them
the track that replaces the sound.  A draft of a custom edit is settled or awaits the
length of its clip, and in both cases the plan it becomes has the parts of the edit.
-/

namespace Montage

variable {α : Type}

/-- The track that the sound needs besides the clips. -/
def Sound.tracks : Sound → List Clip
  | replaced track _ _ => [track]
  | _ => []

/-- The clips of the inputs of a plan, in order. -/
def Plan.clips (plan : Plan α) : List Clip := plan.inputs.map (·.clip)

/-- A draft becomes a plan: it is settled, or some length of its clip brings the plan. -/
def Draft.Becomes : Draft α → Plan α → Prop
  | settled outcome, plan => outcome = .ok plan
  | awaiting _ resume, plan => ∃ length, resume length = .ok plan

/-- The inputs of a join are the clips and the track. -/
theorem Plan.clips_joinInputs (clips : List Clip) (sound : Sound) :
    (joinInputs clips sound).map (·.clip) = clips ++ sound.tracks := by
  have hclips : (clips.map fun clip => ({ clip } : Input)).map (·.clip) = clips := by
    rw [List.map_map]
    exact List.map_id clips
  rw [joinInputs, List.map_append, hclips]
  cases sound <;> rfl

/-- The inputs of an edit are the clip and the track. -/
theorem Edit.clips_inputs (edit : Edit α) (clip : Clip) :
    (edit.inputs clip).map (·.clip) = clip :: edit.sound.tracks := by
  unfold inputs
  cases edit.sound <;> rfl

variable [Arithmetic α] {plan : Plan α}

namespace Plan

/-- The parts of a change of speed. -/
theorem of_changeSpeed {clip : Clip} {ratio : α} {target : String}
    (h : changeSpeed clip ratio target = .ok plan) :
    ∃ timing tempo, Tempo.timeFilter ratio = .ok timing ∧ Tempo.filters ratio = .ok tempo ∧
      plan = ⟨[{ clip }], sourceGraph [timing] tempo, speedMaps tempo, {}, target, none⟩ := by
  rw [changeSpeed_eq] at h
  obtain ⟨timing, htiming, h⟩ := Ends.of_bind_ok h
  obtain ⟨tempo, htempo, h⟩ := Ends.of_bind_ok h
  exact ⟨timing, tempo, htiming, htempo, of_assemble h⟩

/-- The parts of a join, the numbers of whose clips can be read. -/
theorem of_join {clips : List Clip} {resize : Option Resize} {sound : Sound} {target : String}
    {format : Option String} (h : join clips resize sound target format = .ok plan) :
    clips.length ≤ Decimal.unreadable ∧
      plan = ⟨joinInputs clips sound,
        some (joinGraph (Resize.filtersOf resize) sound.isOriginal clips.length),
        joinMaps sound clips.length, joinOptions sound format, target, none⟩ := by
  have hclips : 2 ≤ clips.length := by
    by_contra hfew
    rw [join, if_pos (by omega)] at h
    cases h
  have hsound : sound.check = .ok () := by
    cases hcheck : sound.check with
    | ok => rfl
    | error failure =>
        rw [join, if_neg (by omega), hcheck] at h
        cases h
  rw [join_eq resize target format hclips hsound] at h
  refine ⟨?_, of_assemble h⟩
  -- Otherwise the first number that is too long would have been read.
  by_contra hlong
  obtain ⟨number, hread⟩ := reads_of_assemble h _
    (raw_mem_joinGraph _ sound.isOriginal (show Decimal.unreadable < clips.length by omega))
  rw [Label.rawInput?_raw, if_neg (Nat.lt_irrefl _)] at hread
  cases hread

end Plan

namespace Edit

/-- The parts of an edit, given the length of the output if the edit depends on it. -/
theorem of_compose {edit : Edit α} {clip : Clip} {target : String} {length : Option α}
    (h : edit.compose clip target length = .ok plan) :
    ∃ video audio, edit.videoChain = .ok video ∧ edit.keptChain length = .ok audio ∧
      plan = ⟨edit.inputs clip, Plan.sourceGraph video audio,
        edit.maps (Plan.sourceResult .video video) (Plan.sourceResult .audio audio),
        edit.options length, target, length⟩ := by
  rw [compose_eq] at h
  obtain ⟨video, hvideo, h⟩ := Ends.of_bind_ok h
  obtain ⟨audio, haudio, h⟩ := Ends.of_bind_ok h
  exact ⟨video, audio, hvideo, haudio, Plan.of_assemble h⟩

/-- The plan that an edit becomes is composed for some length of the output. -/
theorem of_becomes {edit : Edit α} {clip : Clip} {target : String}
    (h : (edit.plan clip target).Becomes plan) :
    edit.check = .ok () ∧ ∃ length, edit.compose clip target length = .ok plan := by
  unfold Edit.plan at h
  split at h
  · cases h
  · next hcheck =>
      refine ⟨hcheck, ?_⟩
      split at h
      · obtain ⟨source, hplan⟩ := h
        exact ⟨_, hplan⟩
      · exact ⟨_, h⟩

end Edit

end Montage
