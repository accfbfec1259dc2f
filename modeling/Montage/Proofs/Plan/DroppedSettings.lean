import Montage.Proofs.Plan.EditFlow

/-!
# Settings of a sound that is dropped

The caller's filters of the sound, its volume and its fades are settings of the sound that is
heard.  If the sound of the source is not, they are dropped as a whole: they lead to no
question for the length, to no chain and to no map (`plan_withHeard`).  If it is heard, they
stay on their side: the video, the inputs and the options of the output are those of the other
settings (`heard_settings_stay_apart`).
-/

namespace Montage

variable {α : Type}

/-- The chain of the graph of a plan whose result is the video, if there is one. -/
def Plan.videoNode? (plan : Plan α) : Option (Node α) :=
  plan.chains.find? fun node => node.outputs.contains videoLabel

/-- In the graph of a source that is the chain of the video. -/
theorem Plan.videoNode?_sourceGraph {plan : Plan α} {video audio : List (Filter α)}
    (h : plan.graph = sourceGraph video audio) :
    plan.videoNode? = (sourceChains .video video).head? := by
  have hvideo : [labelOf .video].contains videoLabel = true := by decide
  have haudio : [labelOf .audio].contains videoLabel = false := by decide
  rw [videoNode?, chains_sourceGraph h]
  cases video with
  | cons => exact List.find?_cons_of_pos hvideo
  | nil =>
      cases audio with
      | nil => rfl
      | cons => exact List.find?_cons_of_neg (by rw [sourceChain, haudio]; exact Bool.false_ne_true)

namespace Edit

open Plan

/-- The edit with other settings of the sound that is heard. -/
def withHeard (edit : Edit α) (audioFilters : List String) (volume fadeIn fadeOut : α) : Edit α :=
  { edit with audioFilters, volume, fadeIn, fadeOut }

/-- The options of an edit that keeps the sound do not show the length of the output. -/
theorem options_of_original {edit : Edit α} (h : edit.sound.isOriginal = true)
    (length otherLength : Option α) :
    edit.options otherLength = edit.options length := by
  unfold options
  cases hsound : edit.sound with
  | original | muted | unknown => rfl
  | replaced =>
      rw [hsound] at h
      cases h

variable [Arithmetic α] {edit : Edit α} {audioFilters : List String} {volume fadeIn fadeOut : α}
  {clip : Clip} {target : String}

/-- Only the end of a sound that is kept depends on the length through these settings. -/
theorem needsLength_withHeard (h : edit.sound.isOriginal = false) :
    (edit.withHeard audioFilters volume fadeIn fadeOut).needsLength = edit.needsLength := by
  unfold needsLength withHeard
  cases hsound : edit.sound with
  | original =>
      rw [hsound] at h
      cases h
  | muted | replaced | unknown => rfl

/-- A sound that is not kept has no filters, whatever the settings. -/
theorem keptChain_of_not_original (h : edit.sound.isOriginal = false) (length : Option α) :
    edit.keptChain length = .ok [] := by
  rw [keptChain, h]
  rfl

theorem compose_withHeard (h : edit.sound.isOriginal = false) (length : Option α) :
    (edit.withHeard audioFilters volume fadeIn fadeOut).compose clip target length =
      edit.compose clip target length := by
  have hother : (edit.withHeard audioFilters volume fadeIn fadeOut).sound.isOriginal = false := h
  rw [compose_eq, compose_eq, keptChain_of_not_original h, keptChain_of_not_original hother]
  rfl

/-- Unless the sound of the source is kept, the draft does not depend on these settings. -/
theorem plan_withHeard (hsound : edit.sound.isOriginal = false) (hvalid : edit.check = .ok ())
    (hother : (edit.withHeard audioFilters volume fadeIn fadeOut).check = .ok ()) :
    (edit.withHeard audioFilters volume fadeIn fadeOut).plan clip target =
      edit.plan clip target := by
  have hcompose (length : Option α) :=
    @compose_withHeard _ _ edit audioFilters volume fadeIn fadeOut clip target hsound length
  rw [plan, plan, hvalid, hother]
  simp only [needsLength_withHeard hsound, hcompose]
  rfl

/-- The parts of two plans of such edits that lie on the side of the video, or show the length
of the output, if they show it in the same way. -/
theorem agree_of_compose {plan other : Plan α} {length otherLength : Option α}
    (hplan : edit.compose clip target length = .ok plan)
    (hother : (edit.withHeard audioFilters volume fadeIn fadeOut).compose clip target otherLength =
      .ok other)
    (hoptions : edit.options otherLength = edit.options length) :
    other.videoNode? = plan.videoNode? ∧ other.inputs = plan.inputs ∧
      other.options = plan.options := by
  obtain ⟨video, audio, hvideo, -, rfl⟩ := of_compose hplan
  obtain ⟨video', audio', hvideo', -, rfl⟩ := of_compose hother
  obtain rfl : video' = video := Except.ok.inj (hvideo'.symm.trans hvideo)
  refine ⟨?_, rfl, hoptions⟩
  exact (videoNode?_sourceGraph rfl).trans (videoNode?_sourceGraph rfl).symm

/-- **Settings of the heard sound matter to the heard sound alone.**  Of two edits within their
ranges that differ in the caller's filters of the sound, its volume and its fades, the drafts are
the same unless the sound of the source is kept: they ask for the same length, and go on from
every answer to the same plan or the same failure.  And whatever becomes of the sound, if both
are settled to plans, then these have the same chain for the video or both have none, and the
same inputs and options. -/
theorem heard_settings_stay_apart (clip : Clip) (target : String) (hvalid : edit.check = .ok ())
    (hother : (edit.withHeard audioFilters volume fadeIn fadeOut).check = .ok ()) :
    (edit.sound.isOriginal = false →
      (edit.withHeard audioFilters volume fadeIn fadeOut).plan clip target =
        edit.plan clip target) ∧
    ∀ (probe : Option (Probe α)) (plan other : Plan α),
      (edit.plan clip target).settle probe = .ok plan →
      ((edit.withHeard audioFilters volume fadeIn fadeOut).plan clip target).settle probe =
        .ok other →
      other.videoNode? = plan.videoNode? ∧ other.inputs = plan.inputs ∧
        other.options = plan.options := by
  refine ⟨fun hsound => plan_withHeard hsound hvalid hother, ?_⟩
  intro probe plan other hplan hplan'
  cases hsound : edit.sound.isOriginal with
  | false =>
      rw [plan_withHeard hsound hvalid hother, hplan] at hplan'
      cases hplan'
      exact ⟨rfl, rfl, rfl⟩
  | true =>
      -- One of the two may know the length and the other not.
      obtain ⟨-, length, hcompose, -⟩ := of_settle hplan
      obtain ⟨-, otherLength, hcompose', -⟩ := of_settle hplan'
      exact agree_of_compose hcompose hcompose' (options_of_original hsound length otherLength)

/-- An edit that lays an endless track under the video. -/
def underlaid : Edit Number :=
  { unchanged with sound := .replaced ⟨"b", "/b"⟩ true false }

/-- The length is asked for because of the track, with a fade as without. -/
theorem heard_settings_stay_apart_underlaid :
    (underlaid.withHeard ["highpass=f=200"] (.float 2.0) (.float 1.0) (.float 3.0)).plan ⟨"a", "/a"⟩
        "out.mp4" = underlaid.plan ⟨"a", "/a"⟩ "out.mp4" ∧
      (underlaid.plan ⟨"a", "/a"⟩ "out.mp4").asked = [⟨"a", "/a"⟩] := by
  have hvalid : underlaid.check = .ok () := by decide +kernel
  have hasked : (underlaid.plan ⟨"a", "/a"⟩ "out.mp4").asked = [⟨"a", "/a"⟩] := by decide +kernel
  exact ⟨(heard_settings_stay_apart _ _ hvalid (by decide +kernel)).1 rfl, hasked⟩

end Edit

end Montage
