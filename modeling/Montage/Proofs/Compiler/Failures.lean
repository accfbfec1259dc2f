import Montage.Proofs.Compiler.Draft
import Montage.Proofs.Media
import Montage.Proofs.Request.Refusals

/-!
# How a compilation fails

Every reading of a request fails by refusing the field that it reads, by a name that leads to no
clip, or with a fault (`Reading.fails`).  Behind the readings the planners fail with what they
refuse, and the probe with failures of its own.  So whatever is wrong with a request, its
compilation never fails with a failure of the engine (`failsEarly_compile`).
-/

namespace Montage

namespace Resolver

/-- A name leads to no clip, or the directories cannot be compared with it. -/
def Fails (failure : Failure) : Prop :=
  (∃ file cause, failure = .resolution file cause) ∨ ∃ fault, failure = .fault fault

theorem Fails.isEngine_eq_false {failure : Failure} (h : Fails failure) :
    failure.isEngine = false := by
  rcases h with ⟨file, cause, rfl⟩ | ⟨fault, rfl⟩
  · rfl
  · rfl

theorem search_fails {host : Host} {name : String} {directories : List String} :
    FailsWith Fails (search host name directories) := by
  induction directories with
  | nil => exact .error (.inl ⟨_, _, rfl⟩)
  | cons directory rest ih =>
      unfold search
      have hinside : FailsWith Fails (isInside host directory (Path.join directory name)) := by
        unfold isInside
        split
        · exact .ok _
        · exact .error (.inr ⟨_, rfl⟩)
        · exact .error (.inr ⟨_, rfl⟩)
      refine hinside.bind fun inside => .guard (.inl ⟨_, _, rfl⟩) ?_
      exact .ite (.ok _) ih

theorem resolve_fails {host : Host} {directories : List String} {v : Value} :
    FailsWith Fails (resolve host directories v) := by
  have hother (v : Value) : FailsWith Fails
      (do throw (.resolution (← v.plain) .blank) : Except Failure Clip) :=
    .bind ((v.shownAs_fails _).mono fun _ => .inr) fun _ => .error (.inl ⟨_, _, rfl⟩)
  cases v with
  | text name =>
      simp only [resolve, resolveName]
      refine .ite (.error (.inl ⟨_, _, rfl⟩)) (.ite ?_ search_fails)
      exact .ite (.ok _) (.error (.inl ⟨_, _, rfl⟩))
  | null | bool | number | bytes | date | moment | list | pair | map | set => exact hother _

end Resolver

theorem Plan.Rejection.isEngine_eq_false {count : Nat} {failure : Failure}
    (h : Plan.Rejection count failure) : failure.isEngine = false := by
  cases h <;> rfl

section

variable {α : Type} [Arithmetic α]

theorem Plan.SpeedFails.isEngine_eq_false {ratio : α} {failure : Failure}
    (h : Plan.SpeedFails ratio failure) : failure.isEngine = false := by
  rcases h with h | ⟨-, h⟩
  · unfold Tempo.check at h
    split at h
    · cases h
      rfl
    · split at h
      · cases h
        rfl
      · cases h
  · unfold Tempo.stages at h
    split at h
    · cases h
    · cases h
      rfl

namespace Edit

theorem SettingFails.isEngine_eq_false {edit : Edit α} {failure : Failure}
    (h : edit.SettingFails failure) : failure.isEngine = false := by
  rcases h with h | ⟨rfl, -⟩
  · exact h.isEngine_eq_false
  · rfl

/-- An edit is composed without the engine. -/
theorem failsEarly_compose (edit : Edit α) (clip : Clip) (target : String) {length : Option α}
    (hlength : edit.needsLength = true → length.isSome = true) :
    FailsEarly (edit.compose clip target length) := by
  refine (edit.compose_ends clip target hlength).failsWith.mono ?_
  rintro failure (hrejected | hsetting)
  · exact hrejected.isEngine_eq_false
  · exact hsetting.isEngine_eq_false

end Edit

/-- A draft fails early, whatever the length that it is told. -/
def Draft.FailsEarly : Draft α → Prop
  | .settled outcome => Montage.FailsEarly outcome
  | .awaiting _ resume => ∀ length, Montage.FailsEarly (resume length)

theorem Edit.failsEarly_plan (edit : Edit α) (clip : Clip) (target : String) :
    (edit.plan clip target).FailsEarly := by
  have hcheck := edit.check_ends
  unfold Edit.plan
  cases hresult : edit.check with
  | error failure =>
      rw [hresult] at hcheck
      obtain ⟨name, cause, rfl⟩ := hcheck
      exact FailsWith.error rfl
  | ok =>
      cases hlength : edit.needsLength with
      | true => exact fun length => edit.failsEarly_compose clip target fun _ => rfl
      | false => exact edit.failsEarly_compose clip target (by simp [hlength])

theorem failsEarly_usableLength (clip : Clip) (answer : Option α) :
    FailsEarly (usableLength clip answer) := by
  refine (Edit.usableLength_ends clip answer).failsWith.mono ?_
  rintro failure (⟨cause, rfl⟩ | ⟨rfl, -⟩)
  · rfl
  · rfl

end

namespace Compiler

variable {α β : Type} {c : Compiler} {request : Request} {host : Host}

theorem eq_error_of_outcome {x : Except Failure α} {failure : Failure}
    (h : outcome x = .error failure) : x = .error failure := by
  cases x with
  | ok a => cases h
  | error other =>
      cases h
      rfl

/-- An output that cannot be named is a fault. -/
theorem target_fails {task extension : String} {failure : Failure}
    (h : (c.target request task extension).result host = .error failure) :
    ∃ fault, failure = .fault fault := by
  unfold target at h
  simp only at h
  split at h
  · rw [Action.result_get_bind] at h
    cases hname : OutputName.make host.clock host.epoch task extension with
    | ok name =>
        rw [hname] at h
        cases h
    | error fault =>
        rw [hname] at h
        cases h
        exact ⟨fault, rfl⟩
  · rw [Action.result_lift] at h
    exact Value.shownAs_fails _ _ failure h

/-- The field that a reading refuses; none if it does not read a field of its own. -/
def Reading.field? : Reading → Option String
  | name keys => some (keys.headD "")
  | demand _ field _ | number _ field | switch _ field | filters _ field | codec _ field =>
    some field
  | speed _ _ => some "speed"
  | format => some "format"
  | names => some "videos"
  | size => some "resolution"
  | clip _ | target => none

/-- Every reading refuses its own field, unless a name leads to no clip. -/
theorem Reading.fails {reading : Reading} {failure : Failure}
    (h : reading.run c request host = .error failure) :
    failure.Refuses reading.field? ∨ ∃ file cause, failure = .resolution file cause := by
  cases reading with
  | name keys => exact .inl (Request.refusesOnly_requiredName _ _ _ (eq_error_of_outcome h))
  | demand isMet field cause =>
      cases isMet with
      | true => cases h
      | false =>
          cases h
          exact .inl (.inl ⟨cause, rfl⟩)
  | number keys field => exact .inl (Request.refusesOnly_number? _ _ (eq_error_of_outcome h))
  | speed low high => exact .inl (Request.refusesOnly_speed _ _ _ _ (eq_error_of_outcome h))
  | switch keys field => exact .inl (Request.refusesOnly_switch _ _ _ (eq_error_of_outcome h))
  | filters keys field => exact .inl (Request.refusesOnly_filters _ _ (eq_error_of_outcome h))
  | format => exact .inl (Request.refusesOnly_format? _ _ (eq_error_of_outcome h))
  | codec keys field => exact .inl (Request.refusesOnly_codec? _ _ _ (eq_error_of_outcome h))
  | names => exact .inl (Request.refusesOnly_nameList _ _ (eq_error_of_outcome h))
  | size => exact .inl (Resize.refusesOnly_read _ _ _ _ (eq_error_of_outcome h))
  | clip v =>
      rcases Resolver.resolve_fails failure (eq_error_of_outcome h) with hname | hfault
      · exact .inr hname
      · exact .inl (.inr hfault)
  | target => exact .inl (.inr (target_fails (eq_error_of_outcome h)))

/-- A computation that follows readings fails early if what is left does. -/
theorem Follows.failsEarly {rest : Except Failure β → Prop} {readings : List Reading}
    {x : Except Failure β} (h : Follows c request host rest readings x)
    (hrest : rest x → FailsEarly x) : FailsEarly x := by
  rcases h.cases with ⟨-, hx⟩ | ⟨reading, -, failure, hfails, rfl⟩
  · exact hrest hx
  · refine .error ?_
    rcases Reading.fails hfails with hrefuses | ⟨file, cause, rfl⟩
    · exact hrefuses.isEngine_eq_false
    · rfl

theorem failsEarly_ofValue (v : Value) : FailsEarly (Operation.ofValue v) := by
  refine .ite (.error rfl) ?_
  split
  · exact .ok _
  · exact v.failsEarly_quoted.bind fun _ => .error rfl

/-- What an operation drafts fails early. -/
theorem failsEarly_settled {action : Action (Plan Number)}
    (h : FailsEarly (action.result host)) :
    FailsEarly ((settled action).result host) ∧
      ∀ draft, (settled action).result host = .ok draft → draft.FailsEarly := by
  have hsettled : (settled action).result host =
      action.result host >>= fun plan => .ok (.settled (.ok plan)) :=
    Action.result_bind_lift action _ host
  rw [hsettled]
  refine ⟨h.bind fun _ => .ok _, fun draft hdraft => ?_⟩
  obtain ⟨plan, -, hplan⟩ := Ends.of_bind_ok hdraft
  cases hplan
  exact FailsWith.ok plan

/-- Every operation fails early, and so does what it drafts. -/
theorem failsEarly_perform (c : Compiler) (request : Request) (host : Host)
    (operation : Operation) :
    FailsEarly ((c.perform request operation).result host) ∧
      ∀ draft, (c.perform request operation).result host = .ok draft → draft.FailsEarly := by
  cases operation with
  | convert =>
      refine failsEarly_settled ((convert_follows request).failsEarly ?_)
      rintro ⟨clip, target, format, -, hplan⟩
      rw [hplan]
      exact (Plan.convert_ends clip target format).failsWith.mono fun _ h => h.isEngine_eq_false
  | speed =>
      refine failsEarly_settled ((changeSpeed_follows request).failsEarly ?_)
      rintro ⟨clip, target, ratio, -, -, hplan⟩
      rw [hplan]
      refine (Plan.changeSpeed_ends clip _ target).failsWith.mono ?_
      rintro failure (hrejected | hspeed)
      · exact hrejected.isEngine_eq_false
      · exact hspeed.isEngine_eq_false
  | mute =>
      refine failsEarly_settled ((mute_follows request).failsEarly ?_)
      rintro ⟨clip, target, -, hplan⟩
      rw [hplan]
      exact (Plan.mute_ends clip target).failsWith.mono fun _ h => h.isEngine_eq_false
  | addAudio =>
      refine failsEarly_settled ((addAudio_follows request).failsEarly ?_)
      rintro ⟨clip, track, temporary, target, -, -, hplan⟩
      rw [hplan]
      exact (Plan.replaceSound_ends clip track false temporary target).failsWith.mono
        fun _ h => h.isEngine_eq_false
  | custom =>
      have hcustom : (c.perform request .custom).result host =
          (c.custom request >>= pure).result host := by
        rw [bind_pure]
        rfl
      have hfollows := @custom_follows _ c host request pure
      rw [hcustom]
      refine ⟨hfollows.failsEarly ?_, fun draft hdraft => ?_⟩
      · rintro ⟨clip, sound, edit, target, printed, -, -, -, hplan⟩
        rw [hplan]
        exact .ok _
      · obtain ⟨clip, sound, edit, target, printed, -, -, -, hplan⟩ := hfollows.of_ok hdraft
        cases hplan
        exact edit.failsEarly_plan clip target
  | stitch =>
      refine failsEarly_settled ((stitch_follows request).failsEarly ?_)
      rintro ⟨clips, resize, mute, sound, target, format, extension, -, -, -, -, hplan⟩
      rw [hplan]
      exact (Plan.join_ends clips resize _ target format).failsWith.mono
        fun _ h => h.isEngine_eq_false

/-- Every request fails early to be drafted, and so does what it is drafted to. -/
theorem failsEarly_draft (c : Compiler) (request : Request) (host : Host) :
    FailsEarly ((c.draft request).result host) ∧
      ∀ draft, (c.draft request).result host = .ok draft → draft.FailsEarly := by
  have hdraft := result_draft c request host
  cases hoperation : Operation.ofValue (request.field ["operation"]) with
  | error failure =>
      rw [Ends.error_bind hoperation] at hdraft
      rw [hdraft]
      refine ⟨.error (failsEarly_ofValue _ failure hoperation), ?_⟩
      rintro draft ⟨⟩
  | ok operation =>
      rw [Ends.ok_bind hoperation] at hdraft
      rw [hdraft]
      exact failsEarly_perform c request host operation

/-- **A compilation never fails with a failure of the engine**, unless its probe does. -/
theorem failsEarly_compile (c : Compiler) (request : Request) (host : Host)
    {probe : Clip → Action (Option Number)}
    (hprobe : ∀ clip host, FailsEarly ((probe clip).result host)) :
    FailsEarly ((c.compile request probe).result host) := by
  obtain ⟨hearly, hdrafted⟩ := failsEarly_draft c request host
  cases hdraft : (c.draft request).result host with
  | error failure =>
      obtain ⟨printed, hcompile⟩ := compile_of_error hdraft
      rw [Action.result, hcompile]
      exact .error (hearly failure hdraft)
  | ok draft =>
      have hlate := hdrafted draft hdraft
      cases draft with
      | settled outcome =>
          obtain ⟨printed, hcompile⟩ := compile_of_settled hdraft
          rw [Action.result, hcompile]
          exact hlate
      | awaiting clip resume =>
          -- Only here the probe can fail, and then the length that it answers.
          obtain ⟨printed, hcompile⟩ := compile_of_awaiting hdraft
          rw [Action.result, hcompile]
          change FailsEarly (Action.result _ _)
          rw [Action.result_bind_lift]
          exact (hprobe clip _).bind fun answer =>
            (failsEarly_usableLength clip answer).bind hlate

end Compiler

end Montage
