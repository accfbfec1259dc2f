import Montage.Proofs.Plan.EditFlow
import Montage.Proofs.Tempo

/-!
# Sound and video in step

A change of speed acts on the two streams by different means: on the sound by stages of the
tempo, each a filter of its own, and on the video by one filter that scales its times.  Read
in exact arithmetic both come to the same length (`Plan.InSync`), because the stages multiply
to the ratio.  What an edit computes from the length of the source, the start of the fade at
its end and the bound on an endless track, is meant in that length of the output.

A plan in exact arithmetic is made whenever the settings are in range, the target has a name
and the length is known if it is needed (`Edit.exists_settle`), so that nothing below is said
of plans that do not exist.
-/

namespace Montage

variable {α : Type}

namespace Filter

/-- The ratio of one stage of the tempo that a planner writes. -/
def stage? : Filter α → Option α
  | ⟨name, [(none, .number ratio)]⟩ => if name = "atempo" then some ratio else none
  | _ => none

/-- The factor of a filter of a planner that scales presentation times. -/
def timeFactor? : Filter α → Option α
  | ⟨name, [(none, .scaledTime factor)]⟩ => if name = "setpts" then some factor else none
  | _ => none

/-- The filters leave the speed as it is. -/
def Timeless (filters : List (Filter α)) : Prop :=
  filters.filterMap stage? = [] ∧ filters.filterMap timeFactor? = []

theorem timeless_nil : Timeless ([] : List (Filter α)) := ⟨rfl, rfl⟩

/-- What the caller writes is text, and none of it is taken for a change of speed by a
planner. -/
theorem timeless_ofExpression (expressions : List String) :
    Timeless (expressions.map ofExpression : List (Filter α)) := by
  have hnone (expression : String) :
      stage? (ofExpression expression : Filter α) = none ∧
        timeFactor? (ofExpression expression : Filter α) = none := by
    unfold ofExpression
    extract_lets cs
    split <;> exact ⟨rfl, rfl⟩
  simp [Timeless, List.filterMap_map, hnone]

theorem timeless_resize [Arithmetic α] (resize : Option Resize) :
    Timeless (Resize.filtersOf resize : List (Filter α)) := by
  cases resize with
  | none => exact timeless_nil
  | some r =>
      rw [Resize.filtersOf, Resize.filters]
      split
      · exact ⟨rfl, rfl⟩
      · split <;> exact ⟨rfl, rfl⟩

theorem stages_filtersOf (stages : List α) :
    (Tempo.filtersOf stages).filterMap stage? = stages := by
  rw [Tempo.filtersOf, List.filterMap_map]
  exact List.filterMap_some

theorem timeFactors_filtersOf (stages : List α) :
    (Tempo.filtersOf stages).filterMap timeFactor? = [] := by
  rw [Tempo.filtersOf, List.filterMap_map]
  exact List.filterMap_eq_nil_iff.2 fun _ _ => rfl

end Filter

namespace Plan

/-- The filters of the graph of a plan. -/
def filters (plan : Plan α) : List (Filter α) := plan.chains.flatMap (·.filters)

/-- The stages of the tempo in a plan. -/
def stages (plan : Plan α) : List α := plan.filters.filterMap Filter.stage?

/-- The factors by which a plan scales presentation times. -/
def timeFactors (plan : Plan α) : List α := plan.filters.filterMap Filter.timeFactor?

/-- The filters of the two sides of a source. -/
theorem filters_sourceGraph {plan : Plan α} {video audio : List (Filter α)}
    (h : plan.graph = sourceGraph video audio) : plan.filters = video ++ audio := by
  have hside (stream : Stream) (filters : List (Filter α)) :
      (sourceChains stream filters).flatMap (·.filters) = filters := by
    cases filters <;> simp [sourceChains, sourceChain]
  rw [filters, chains_sourceGraph h, List.flatMap_append, hside, hside]

/-- The sound and the video of a plan come to the same length: the stages of the tempo multiply
to the speed, and the times of the video are scaled at most once, by its reciprocal. -/
structure InSync (plan : Plan Rat) (speed : Rat) : Prop where
  tempo : plan.stages.prod = speed
  scaledOnce : plan.timeFactors.length ≤ 1
  balanced : plan.stages.prod * plan.timeFactors.prod = 1

/-- The sound of a plan ends with a fade that starts at `start`.  The fade is over with an
output of the given length, or begins with it if the fade takes longer. -/
structure FadesOut (plan : Plan Rat) (fade length start : Rat) : Prop where
  last : ∃ video before,
    plan.outputs = some [video,
      .through (Label.raw 0 .audio) (before ++ [Edit.fadeFilter "out" start fade])] ∧
    plan.stages = before.filterMap Filter.stage?
  nonneg : 0 ≤ start
  le_length : start ≤ length
  ends : fade ≤ length → start + fade = length
  whole : length < fade → start = 0

end Plan

namespace Tempo

variable {speed : Rat}

theorem check_rat (h : 0 < speed) : check speed = .ok () := by
  have hpositive : Arithmetic.isAtMostZero speed = false := decide_eq_false (not_le.2 h)
  rw [check, hpositive]
  rfl

theorem timeFilter_rat (h : 0 < speed) :
    timeFilter speed = .ok (.positional "setpts" [.scaledTime (1 / speed)]) := by
  rw [timeFilter, check_rat h]
  rfl

theorem filters_rat (h : 0 < speed) :
    ∃ stages, filters speed = .ok (filtersOf stages) ∧ stages.prod = speed := by
  obtain ⟨stages, hstages, hproduct⟩ := stages_rat h
  refine ⟨stages, ?_, hproduct⟩
  rw [filters, check_rat h, hstages]
  rfl

end Tempo

namespace Plan

/-- Two sides are in step if only the sound has stages and only the video is retimed. -/
theorem inSync_sides {plan : Plan Rat} {video audio : List (Filter Rat)} {stages factors : List Rat}
    {speed : Rat} (hspeed : 0 < speed) (hgraph : plan.graph = sourceGraph video audio)
    (hvideo : video.filterMap Filter.stage? = [] ∧ video.filterMap Filter.timeFactor? = factors)
    (haudio : audio.filterMap Filter.stage? = stages ∧ audio.filterMap Filter.timeFactor? = [])
    (hstages : stages.prod = speed) (honce : factors.length ≤ 1)
    (hfactors : factors.prod = 1 / speed) : plan.InSync speed := by
  have htempo : plan.stages = stages := by
    rw [Plan.stages, filters_sourceGraph hgraph, List.filterMap_append, hvideo.1, haudio.1,
      List.nil_append]
  have hscaled : plan.timeFactors = factors := by
    rw [timeFactors, filters_sourceGraph hgraph, List.filterMap_append, hvideo.2, haudio.2,
      List.append_nil]
  refine ⟨by rw [htempo, hstages], by rw [hscaled]; exact honce, ?_⟩
  rw [htempo, hscaled, hstages, hfactors]
  field_simp

/-- A change of speed is a plan whose sound and video stay in step. -/
theorem exists_changeSpeed (clip : Clip) {speed : Rat} {target : String} (hspeed : 0 < speed)
    (htarget : target ≠ "") :
    ∃ plan, changeSpeed clip speed target = .ok plan ∧ plan.InSync speed := by
  obtain ⟨stages, hstages, hproduct⟩ := Tempo.filters_rat hspeed
  let timing : Filter Rat := .positional "setpts" [.scaledTime (1 / speed)]
  have hwired : Wired [{ clip }] (sourceGraph [timing] (Tempo.filtersOf stages))
      (speedMaps (Tempo.filtersOf stages)) {} :=
    wired_sourceGraph [timing] (Tempo.filtersOf stages) (by simp) (chosen_speedMaps _ _) (by simp)
  refine ⟨⟨[{ clip }], sourceGraph [timing] (Tempo.filtersOf stages),
    speedMaps (Tempo.filtersOf stages), {}, target, none⟩, ?_, ?_⟩
  · rw [changeSpeed_eq, Tempo.timeFilter_rat hspeed, hstages]
    exact hwired.assemble_eq_ok (numbered_sourceGraph _ _) none htarget nofun
  · have hscaled : [timing].filterMap Filter.timeFactor? = [1 / speed] := rfl
    exact inSync_sides hspeed rfl ⟨rfl, hscaled⟩
      ⟨Filter.stages_filtersOf stages, Filter.timeFactors_filtersOf stages⟩ hproduct (by simp)
      (by simp)

end Plan

namespace Edit

open Plan

/-- Only the length of the output bounds it. -/
theorem duration_options {edit : Edit α} {length : Option α} {d : α}
    (h : (edit.options length).duration = some d) : length = some d := by
  unfold options at h
  cases hsound : edit.sound with
  | replaced track loop temporary =>
      rw [hsound] at h
      cases loop with
      | true => exact h
      | false => cases h
  | original | muted | unknown =>
      rw [hsound] at h
      cases h

section

variable [Arithmetic α]

/-- The video has no stages, and its times are scaled exactly if the speed changes. -/
theorem changes_videoPath (edit : Edit α) :
    edit.videoPath.filterMap Filter.stage? = [] ∧
      edit.videoPath.filterMap Filter.timeFactor? =
        if edit.changesSpeed then [Tempo.timeFactor edit.speed] else [] := by
  have hresize := Filter.timeless_resize (α := α) edit.resize
  have hcaller := Filter.timeless_ofExpression (α := α) edit.videoFilters
  simp only [videoPath, List.filterMap_append, hresize.1, hresize.2, hcaller.1, hcaller.2,
    List.nil_append]
  split <;> exact ⟨rfl, rfl⟩

/-- The sound has the stages of the tempo exactly if the speed changes, all of them before the
fade at its end. -/
theorem changes_steadyPath (edit : Edit α) (stages : List α) :
    (edit.steadyPath stages).filterMap Filter.stage? =
        (if edit.changesSpeed then stages else []) ∧
      (edit.steadyPath stages).filterMap Filter.timeFactor? = [] := by
  have hcaller := Filter.timeless_ofExpression (α := α) edit.audioFilters
  have hvolume : Filter.Timeless (if Arithmetic.eq edit.volume Arithmetic.one then []
      else [.positional "volume" [.number edit.volume]]) := by
    split <;> exact ⟨rfl, rfl⟩
  have hfadeIn : Filter.Timeless (if Arithmetic.isPositive edit.fadeIn then
      [fadeFilter "in" (Arithmetic.ofInt 0) edit.fadeIn] else []) := by
    split <;> exact ⟨rfl, rfl⟩
  simp only [steadyPath, List.filterMap_append, hcaller.1, hcaller.2, hvolume.1, hvolume.2,
    hfadeIn.1, hfadeIn.2, List.nil_append, List.append_nil]
  split
  · exact ⟨Filter.stages_filtersOf stages, Filter.timeFactors_filtersOf stages⟩
  · exact ⟨rfl, rfl⟩

theorem changes_soundPath (edit : Edit α) (stages : List α) (source : α) :
    (edit.soundPath stages source).filterMap Filter.stage? =
        (edit.steadyPath stages).filterMap Filter.stage? ∧
      (edit.soundPath stages source).filterMap Filter.timeFactor? = [] := by
  rw [soundPath, List.filterMap_append, List.filterMap_append, (edit.changes_steadyPath stages).2]
  split
  · exact ⟨List.append_nil _, rfl⟩
  · exact ⟨List.append_nil _, rfl⟩

end

section Rationals

variable {edit : Edit Rat} {clip : Clip} {target : String} {source : Rat}

theorem speed_pos (h : edit.check = .ok ()) : 0 < edit.speed := by
  have hpositive : decide (edit.speed ≤ 0) = false := (of_check h).1
  simpa using hpositive

/-- The speed stays as it is only if it is one. -/
theorem speed_eq_one {edit : Edit Rat} (h : ¬ edit.changesSpeed = true) : edit.speed = 1 := by
  have hchanges : edit.changesSpeed = !decide (edit.speed = 1) := rfl
  simpa [hchanges] using h

/-- The length of the output in one formula, whether or not the speed changes. -/
theorem outputLength_rat (edit : Edit Rat) (source : Rat) :
    edit.outputLength source = source / edit.speed := by
  unfold outputLength
  split
  · rfl
  · next hsame =>
      rw [speed_eq_one hsame, div_one]

theorem not_settingFails (h : 0 < edit.speed) (failure : Failure) :
    ¬ edit.SettingFails failure := by
  obtain ⟨stages, hstages, -⟩ := Tempo.stages_rat h
  rintro ((hcheck | ⟨-, hstuck⟩) | ⟨-, hfits⟩)
  · rw [Tempo.check_rat h] at hcheck
    cases hcheck
  · rw [hstages] at hstuck
    cases hstuck
  · cases hfits

/-- Where a fade of an output of the given length starts. -/
theorem fadeOutStart_rat (length fade : Rat) :
    fadeOutStart length fade = max 0 (length - fade) := by
  have hclamp : fadeOutStart length fade = if 0 < length - fade then length - fade else 0 := by
    change (if decide (0 < length - fade) = true then length - fade else 0) = _
    simp only [decide_eq_true_eq]
  rw [hclamp]
  split
  · next hpos => rw [max_eq_right hpos.le]
  · next hneg => rw [max_eq_left (not_lt.1 hneg)]

/-- The factors that scale the times of the video multiply to the reciprocal of the speed. -/
theorem prod_timeFactors_videoPath (edit : Edit Rat) :
    (edit.videoPath.filterMap Filter.timeFactor?).prod = 1 / edit.speed := by
  rw [edit.changes_videoPath.2]
  split
  · exact List.prod_singleton
  · next hsame =>
      rw [speed_eq_one hsame, div_one, List.prod_nil]

/-- An edit in range asks for nothing but the length, and goes on with the length of the
output. -/
theorem settle_rat {probe : Option (Probe Rat)} (hcheck : edit.check = .ok ())
    (hsource : 0 < source)
    (hlength : edit.needsLength = true → ∃ ask, probe = some ask ∧ ask clip = .ok (some source)) :
    (edit.plan clip target).settle probe = edit.compose clip target
      (if edit.needsLength then some (source / edit.speed) else none) := by
  rw [plan, hcheck]
  cases hneeds : edit.needsLength with
  | false => rfl
  | true =>
      obtain ⟨ask, rfl, hanswer⟩ := hlength hneeds
      have husable : usableLength clip (some source) = .ok source := by
        have hpositive : Arithmetic.isAtMostZero source = false :=
          decide_eq_false (not_le.2 hsource)
        rw [usableLength, hpositive]
        rfl
      rw [← outputLength_rat]
      exact (Ends.ok_bind hanswer).trans (Ends.ok_bind husable)

/-- The parts of an edit in range make a plan, for a length of the output that is positive. -/
theorem exists_compose {length : Option Rat} (hspeed : 0 < edit.speed) (htarget : target ≠ "")
    (hneeded : edit.needsLength = true → length = some (source / edit.speed))
    (hpositive : ∀ d, length = some d → 0 < d) :
    ∃ stages,
      (edit.changesSpeed = true → edit.sound = .original → Tempo.stages edit.speed = .ok stages) ∧
      edit.compose clip target length =
        .ok ⟨edit.inputs clip, sourceGraph edit.videoPath (edit.keptPath stages source),
          edit.maps (sourceResult .video edit.videoPath)
            (sourceResult .audio (edit.keptPath stages source)),
          edit.options length, target, length⟩ := by
  have hnever := not_settingFails hspeed
  obtain ⟨video, hvideo, -⟩ := edit.videoChain_ends.exists_ok hnever
  obtain ⟨audio, haudio, hkept⟩ := (edit.keptChain_ends length).exists_ok hnever
  have hknown : edit.needsLength = true → length.isSome = true := by
    intro hneeds
    rw [hneeded hneeds]
    rfl
  have hwired := edit.wired_parts clip video audio hkept hknown
  have hplan := hwired.assemble_eq_ok (numbered_sourceGraph video audio) length htarget
    fun d hd => decide_eq_false (not_le.2 (hpositive d (duration_options hd)))
  rw [← outputLength_rat] at hneeded
  obtain rfl := eq_videoPath hvideo
  obtain ⟨stages, hstages, rfl⟩ := eq_keptPath hneeded haudio
  refine ⟨stages, hstages, ?_⟩
  rw [compose_eq, hvideo, haudio]
  exact hplan

/-- What an edit in exact arithmetic makes of the length of its source. -/
structure Timed (edit : Edit Rat) (source : Rat) (plan : Plan Rat) : Prop where
  /-- The sound that is kept stays in step with the video. -/
  inSync : edit.sound = .original → plan.InSync edit.speed
  /-- It fades out at the end of the output. -/
  fades : edit.sound = .original → 0 < edit.fadeOut →
    ∃ start, plan.FadesOut edit.fadeOut (source / edit.speed) start
  /-- An endless track is bounded by the length that scaling the times gives the video. -/
  bounded : ∀ track temporary, edit.sound = .replaced track true temporary →
    plan.options.duration = some (source / edit.speed) ∧
      source * plan.timeFactors.prod = source / edit.speed

/-- The stages of the sound that is kept multiply to the speed. -/
theorem prod_stages_steadyPath {stages : List Rat} (hspeed : 0 < edit.speed)
    (hstages : edit.changesSpeed = true → Tempo.stages edit.speed = .ok stages) :
    ((edit.steadyPath stages).filterMap Filter.stage?).prod = edit.speed := by
  rw [(edit.changes_steadyPath stages).1]
  split
  · next hchanges =>
      obtain ⟨known, hknown, hproduct⟩ := Tempo.stages_rat hspeed
      rw [hstages hchanges] at hknown
      cases hknown
      exact hproduct
  · next hsame =>
      rw [speed_eq_one hsame, List.prod_nil]

/-- A fade starts early enough to be over with the output, and not before it begins. -/
theorem fadesOut_of_last {plan : Plan Rat} {fade length : Rat} (hfade : 0 < fade)
    (hlength : 0 < length) {video : Signal Rat} {before : List (Filter Rat)}
    (houtputs : plan.outputs = some [video, .through (Label.raw 0 .audio)
      (before ++ [fadeFilter "out" (fadeOutStart length fade) fade])])
    (hstages : plan.stages = before.filterMap Filter.stage?) :
    plan.FadesOut fade length (fadeOutStart length fade) where
  last := ⟨video, before, houtputs, hstages⟩
  nonneg := by
    rw [fadeOutStart_rat]
    exact le_max_left 0 _
  le_length := by
    rw [fadeOutStart_rat]
    exact max_le hlength.le (by linarith)
  ends hfits := by
    rw [fadeOutStart_rat, max_eq_right (by linarith), sub_add_cancel]
  whole hlong := by
    rw [fadeOutStart_rat, max_eq_left (by linarith)]

/-- The parts of an edit keep sound and video in step. -/
theorem timed_parts {stages : List Rat} {length : Option Rat} (hcheck : edit.check = .ok ())
    (hsource : 0 < source)
    (hstages : edit.changesSpeed = true → edit.sound = .original →
      Tempo.stages edit.speed = .ok stages)
    (hlength : edit.needsLength = true → length = some (source / edit.speed)) :
    Timed edit source
      ⟨edit.inputs clip, sourceGraph edit.videoPath (edit.keptPath stages source),
        edit.maps (sourceResult .video edit.videoPath)
          (sourceResult .audio (edit.keptPath stages source)),
        edit.options length, target, length⟩ := by
  have hspeed := speed_pos hcheck
  obtain ⟨-, -, -, -, hsound⟩ := of_check hcheck
  have houtputs := (@plays_parts _ _ edit clip target hsound stages source length).outputs
  have hvideo := edit.changes_videoPath
  have haudio := edit.changes_soundPath stages source
  refine ⟨fun horiginal => ?_, fun horiginal hfade => ?_, fun track temporary hloops => ?_⟩
  · refine inSync_sides hspeed rfl ⟨hvideo.1, rfl⟩ ?_
      (prod_stages_steadyPath hspeed fun hchanges => hstages hchanges horiginal) ?_
      edit.prod_timeFactors_videoPath
    · rw [keptPath_of_original horiginal]
      exact haudio
    · rw [hvideo.2]
      split <;> simp
  · have hends : Arithmetic.isPositive edit.fadeOut = true := decide_eq_true hfade
    have hlast : edit.soundPath stages source = edit.steadyPath stages ++
        [fadeFilter "out" (fadeOutStart (source / edit.speed) edit.fadeOut) edit.fadeOut] := by
      rw [soundPath, if_pos hends, outputLength_rat]
    have hheard : edit.soundSignals stages source = [.through (Label.raw 0 .audio)
        (edit.steadyPath stages ++
          [fadeFilter "out" (fadeOutStart (source / edit.speed) edit.fadeOut) edit.fadeOut])] := by
      rw [soundSignals, horiginal, hlast]
    rw [hheard] at houtputs
    refine ⟨_, fadesOut_of_last hfade (div_pos hsource hspeed) houtputs ?_⟩
    rw [Plan.stages, filters_sourceGraph rfl, List.filterMap_append, hvideo.1,
      keptPath_of_original horiginal, haudio.1, List.nil_append]
  · have hneeds : edit.needsLength = true := by rw [needsLength, hloops]
    have hsilent : edit.keptPath stages source = [] :=
      keptPath_of_not_original (by rw [hloops]; rfl)
    constructor
    · change (edit.options length).duration = _
      rw [options, hloops, hlength hneeds]
      rfl
    · rw [timeFactors, filters_sourceGraph rfl, hsilent, List.append_nil,
        edit.prod_timeFactors_videoPath, mul_one_div]

end Rationals

/-- **Sound and video stay in step.**  In exact arithmetic, a change of speed and an edit whose
settings are in range and whose length is known if it is needed are plans in which the stages of
the tempo and the scaled times of the video undo each other; an edit fades out at the end of its
output, and an endless track is bounded by the length of the video. -/
theorem sound_and_video_in_step :
    (∀ (clip : Clip) (speed : Rat) (target : String), 0 < speed → target ≠ "" →
      ∃ plan, changeSpeed clip speed target = .ok plan ∧ plan.InSync speed) ∧
    ∀ (edit : Edit Rat) (clip : Clip) (target : String) (probe : Option (Probe Rat))
      (source : Rat), edit.check = .ok () → target ≠ "" → 0 < source →
      (edit.needsLength = true → ∃ ask, probe = some ask ∧ ask clip = .ok (some source)) →
      ∃ plan, (edit.plan clip target).settle probe = .ok plan ∧ Timed edit source plan := by
  refine ⟨fun clip speed target => exists_changeSpeed clip, ?_⟩
  intro edit clip target probe source hcheck htarget hsource hlength
  have hspeed := speed_pos hcheck
  rw [settle_rat hcheck hsource hlength]
  generalize hout : (if edit.needsLength then some (source / edit.speed) else none) = length
  have hneeded : edit.needsLength = true → length = some (source / edit.speed) := by
    intro hneeds
    rw [← hout, if_pos hneeds]
  have hpositive (d : Rat) (hd : length = some d) : 0 < d := by
    rw [← hout] at hd
    split at hd
    · cases hd
      exact div_pos hsource hspeed
    · cases hd
  obtain ⟨stages, hstages, hplan⟩ := exists_compose hspeed htarget hneeded hpositive
  exact ⟨_, hplan, timed_parts hcheck hsource hstages hneeded⟩

/-- An edit that triples the speed and fades the sound out. -/
def tripling : Edit Rat :=
  { speed := 3, audioFilters := ["highpass=f=200"], volume := 1, fadeIn := 0, fadeOut := 5 }

/-- Of thirty seconds remain ten, the last five of which fade. -/
theorem in_step_tripling :
    (∃ plan, changeSpeed ⟨"a", "/a"⟩ 3 "out.mp4" = .ok plan ∧ plan.InSync 3) ∧
    ∃ plan, (tripling.plan ⟨"a", "/a"⟩ "out.mp4").settle (some fun _ => .ok (some 30)) = .ok plan ∧
      plan.InSync 3 ∧ ∃ start, plan.FadesOut 5 10 start := by
  refine ⟨sound_and_video_in_step.1 _ 3 _ (by norm_num) (by decide), ?_⟩
  obtain ⟨plan, hplan, htimed⟩ := sound_and_video_in_step.2 tripling ⟨"a", "/a"⟩ "out.mp4"
    (some fun _ => .ok (some 30)) 30 rfl (by decide) (by norm_num) fun _ => ⟨_, rfl, rfl⟩
  refine ⟨plan, hplan, htimed.inSync rfl, ?_⟩
  have hfades := htimed.fades rfl (by simp [tripling])
  have hlength : (30 : Rat) / tripling.speed = 10 := by norm_num [tripling]
  rwa [hlength] at hfades

end Edit

end Montage
