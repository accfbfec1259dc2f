import Montage.Proofs.Plan.Edit

/-!
# The fixed recipes as custom edits

A change of speed, a conversion and the removal of the sound are planned apart from the custom
edits, by definitions of their own.  Each of them is nevertheless the plan of an edit: of the
one that changes nothing but the speed, the format or the sound (`recipes_are_edits`).  Such an
edit never asks for a length, so that no probe makes a difference.
-/

namespace Montage.Edit

open Plan

theorem eq_one_one : Arithmetic.eq (Arithmetic.one : Number) Arithmetic.one = true := by
  decide +kernel

theorem isAtMostZero_one : Arithmetic.isAtMostZero (Arithmetic.one : Number) = false := by
  decide +kernel

theorem lt_zero_zero : Arithmetic.lt (Arithmetic.zero : Number) Arithmetic.zero = false := by
  decide +kernel

/-- The edit that changes no more than the speed, the format and the sound. -/
def plain (speed : Number) (format : Option String) (sound : Sound) : Edit Number :=
  { unchanged with speed, format, sound }

section

variable {speed : Number} {format : Option String} {sound : Sound}

/-- Of such an edit the speed can be refused, and the sound. -/
theorem check_plain :
    (plain speed format sound).check =
      if Arithmetic.isAtMostZero speed then .error (.field (some "speed") .speedNotPositive)
      else sound.check := by
  simp only [check, plain, unchanged, isAtMostZero_one, lt_zero_zero, Bool.false_eq_true, if_false]
  cases Arithmetic.isAtMostZero speed <;> rfl

/-- Its video is retimed if the speed changes, and is left alone otherwise. -/
theorem videoChain_plain :
    (plain speed format sound).videoChain =
      if Arithmetic.eq speed Arithmetic.one then .ok []
      else (Tempo.timeFilter speed).map fun timing => [timing] := by
  unfold videoChain changesSpeed plain unchanged
  cases h : Arithmetic.eq speed Arithmetic.one with
  | true => rfl
  | false =>
      simp only [Bool.not_false, if_true]
      cases Tempo.timeFilter speed <;> rfl

/-- Its sound, if it is kept, has the stages of the tempo if the speed changes. -/
theorem audioChain_plain :
    (plain speed format sound).audioChain none =
      if Arithmetic.eq speed Arithmetic.one then .ok [] else Tempo.filters speed := by
  unfold audioChain changesSpeed plain unchanged
  have hfade : Arithmetic.isPositive (Arithmetic.zero : Number) = false := lt_zero_zero
  cases h : Arithmetic.eq speed Arithmetic.one with
  | true => simp [eq_one_one, hfade, pure, Except.pure, bind, Except.bind]
  | false =>
      cases Tempo.filters speed with
      | error failure => rfl
      | ok tempo => simp [eq_one_one, hfade, pure, Except.pure, bind, Except.bind]

/-- Without a track in place of the sound it asks for nothing. -/
theorem plan_plain (hspeed : Arithmetic.isAtMostZero speed = false)
    (hsound : sound = .original ∨ sound = .muted) (clip : Clip) (target : String) :
    (plain speed format sound).plan clip target =
      .settled ((plain speed format sound).compose clip target none) := by
  have hcheck : (plain speed format sound).check = .ok () := by
    rw [check_plain, hspeed]
    rcases hsound with rfl | rfl <;> rfl
  have hlength : (plain speed format sound).needsLength = false := by
    rcases hsound with rfl | rfl
    · exact lt_zero_zero
    · rfl
  rw [plan, hcheck]
  simp only [hlength]
  rfl

/-- At the speed of the source neither side has filters, and there is no graph. -/
theorem compose_plain_of_unfiltered (hspeed : Arithmetic.eq speed Arithmetic.one = true)
    (clip : Clip) (target : String) :
    (plain speed format sound).compose clip target none =
      assemble ((plain speed format sound).inputs clip) none
        ((plain speed format sound).maps none none) ((plain speed format sound).options none)
        target none := by
  have hvideo : (plain speed format sound).videoChain = .ok [] := by
    rw [videoChain_plain, if_pos hspeed]
  have haudio : (plain speed format sound).keptChain none = .ok [] := by
    rw [keptChain, audioChain_plain, if_pos hspeed, ite_self]
  rw [compose_eq, hvideo, haudio]
  rfl

end

/-- The maps of a filtered video beside a sound that is kept are those of a change of speed,
whether or not the speed has stages. -/
theorem maps_of_speed (speed : Number) (timing : Filter Number) (tempo : List (Filter Number)) :
    (plain speed none .original).maps (sourceResult .video [timing]) (sourceResult .audio tempo) =
      speedMaps tempo := by
  cases tempo <;> rfl

/-- Both refuse the same speeds, with the same failure and before anything else. -/
theorem changeSpeed_of_isAtMostZero {ratio : Number}
    (h : Arithmetic.isAtMostZero ratio = true) (clip : Clip) (target : String) :
    changeSpeed clip ratio target = .error (.field (some "speed") .speedNotPositive) := by
  have hcheck : Tempo.check ratio = .error (.field (some "speed") .speedNotPositive) := if_pos h
  have htiming : Tempo.timeFilter ratio = .error _ := Ends.error_bind hcheck
  exact Ends.error_bind htiming

/-- Another speed is the edit of the speed alone. -/
theorem plan_speed {ratio : Number} (h : Arithmetic.eq ratio Arithmetic.one = false) (clip : Clip)
    (target : String) :
    (plain ratio none .original).plan clip target = .settled (changeSpeed clip ratio target) := by
  cases hspeed : Arithmetic.isAtMostZero ratio with
  | true =>
      -- The edit is refused by its check, the change of speed on the way to the first filter.
      have hcheck := @check_plain ratio none .original
      rw [if_pos hspeed] at hcheck
      rw [plan, hcheck, changeSpeed_of_isAtMostZero hspeed]
  | false =>
      have hvideo := @videoChain_plain ratio none .original
      have haudio : (plain ratio none .original).keptChain none = Tempo.filters ratio := by
        rw [keptChain, audioChain_plain, h]
        rfl
      rw [h] at hvideo
      rw [plan_plain hspeed (.inl rfl), compose_eq, changeSpeed_eq, hvideo, haudio]
      cases Tempo.timeFilter ratio with
      | error failure => rfl
      | ok timing =>
          have hassembled (tempo : List (Filter Number)) :
              assemble ((plain ratio none .original).inputs clip) (sourceGraph [timing] tempo)
                  ((plain ratio none .original).maps (sourceResult .video [timing])
                    (sourceResult .audio tempo))
                  ((plain ratio none .original).options none) target none =
                assemble [{ clip }] (sourceGraph [timing] tempo) (speedMaps tempo) {} target
                  none := by
            rw [maps_of_speed]
            rfl
          exact congrArg Draft.settled (bind_congr hassembled)

/-- Another format is the edit of the format alone. -/
theorem plan_format (format : String) (clip : Clip) (target : String) :
    (plain Arithmetic.one (some format) .original).plan clip target =
      .settled (convert clip target format) := by
  rw [plan_plain isAtMostZero_one (.inl rfl), compose_plain_of_unfiltered eq_one_one]
  rfl

/-- The removal of the sound is the edit of the sound alone. -/
theorem plan_muted (clip : Clip) (target : String) :
    (plain Arithmetic.one none .muted).plan clip target = .settled (Plan.mute clip target) := by
  rw [plan_plain isAtMostZero_one (.inr rfl), compose_plain_of_unfiltered eq_one_one]
  rfl

/-- **The fixed recipes are custom edits.**  With every probe, or without one, the edit that
changes nothing but the speed is settled to the change of speed, the one that changes nothing
but the format to the conversion, and the one that mutes to the removal of the sound: to the
same plan or with the same failure.  The speed may be any number other than one, also one that
both refuse. -/
theorem recipes_are_edits (clip : Clip) (target : String) (probe : Option (Probe Number)) :
    (∀ ratio : Number, Arithmetic.eq ratio Arithmetic.one = false →
      (({ unchanged with speed := ratio } : Edit Number).plan clip target).settle probe =
        changeSpeed clip ratio target) ∧
    (∀ format : String,
      (({ unchanged with format := some format } : Edit Number).plan clip target).settle probe =
        convert clip target format) ∧
    (({ unchanged with sound := .muted } : Edit Number).plan clip target).settle probe =
      Plan.mute clip target := by
  refine ⟨fun ratio h => ?_, fun format => ?_, ?_⟩
  · exact congrArg (Draft.settle · probe) (plan_speed h clip target)
  · exact congrArg (Draft.settle · probe) (plan_format format clip target)
  · exact congrArg (Draft.settle · probe) (plan_muted clip target)

/-- A speed of three has two stages, and its sound comes from the graph. -/
theorem recipes_are_edits_tripling :
    ∃ plan, (({ unchanged with speed := .float 3.0 } : Edit Number).plan ⟨"a", "/a"⟩ "b.mp4").settle
        none = .ok plan ∧
      plan.maps = [.ofLabel videoLabel, .ofLabel audioLabel] ∧
      changeSpeed ⟨"a", "/a"⟩ (.float 3.0) "b.mp4" = .ok plan := by
  have hmaps : (changeSpeed ⟨"a", "/a"⟩ (Number.float 3.0) "b.mp4").toOption.map (·.maps) =
      some [.ofLabel videoLabel, .ofLabel audioLabel] := by decide +kernel
  have hsame := (recipes_are_edits ⟨"a", "/a"⟩ "b.mp4" none).1 (.float 3.0) (by decide +kernel)
  cases hplan : changeSpeed ⟨"a", "/a"⟩ (Number.float 3.0) "b.mp4" with
  | error failure =>
      rw [hplan] at hmaps
      cases hmaps
  | ok plan =>
      rw [hplan] at hmaps hsame
      exact ⟨plan, hsame, Option.some.inj hmaps, rfl⟩

end Montage.Edit
