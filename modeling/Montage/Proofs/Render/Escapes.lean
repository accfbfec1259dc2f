import Montage.CommandLine.Run
import Montage.Proofs.Host.Limit
import Montage.Proofs.Render.Outcome

/-!
# Failures that escape a render

A render turns what goes wrong with the engine into failures of the engine: that it does not
start, takes too long, ends with an exit code, or writes nothing.  What goes wrong beside that
escapes as it is (`escapes_iff`): a temporary input that the system does not let go, the
directory of the output, a command that the system does not take, a time limit that it cannot be
asked for, output that is no text or tells too large a number, and the clock.  The command line
does not expect any of it either (`Escapes.settle`).
-/

namespace Montage

/-- A directory is refused by the system, its path is, or it is too deep. -/
theorem FileTree.of_makePath_error {tree : FileTree} {directory : Place} {path : String}
    {failure : Failure} (h : (tree.makePath directory path).2 = .error failure) :
    failure = .system ∨ failure = .fault .badValue ∨ failure = .fault .endless := by
  unfold makePath at h
  split at h <;> cases h
  · exact .inr (.inl rfl)
  · exact .inr (.inr rfl)
  · exact .inl rfl

namespace Render

open Montage.Action

variable {plan : Plan Number} {config : Config} {host : Host} {failure : Failure}
  {limit : Option Number} {engine : Behaviour} {command : List String} {shown : Bool}

/-- How a failure escapes while the report of an engine is read. -/
inductive WatchEscapes (limit : Option Number) (engine : Behaviour) : Failure → Prop
  /-- The engine is stopped at once, and the message about it cannot name the limit. -/
  | unnamed {seconds : Number} (hlimit : limit = some seconds)
      (halarm : Limit.alarm seconds = .atOnce) (hlong : seconds.isTooLong = true) :
      WatchEscapes limit engine (.fault .badValue)
  /-- A position is too large for a double. -/
  | position {line : String} {n : Int} (hgoes : limit.map Limit.alarm ≠ some .atOnce)
      (hline : line ∈ engine.lines) (htold : Progress.told? line = some n)
      (hlarge : (Float.ofInt n).isFinite = false) : WatchEscapes limit engine (.fault .tooLarge)
  /-- The report goes on with bytes that are no text. -/
  | garbledOut (hgoes : limit.map Limit.alarm ≠ some .atOnce)
      (hread : Progress.Readable engine.lines) (hgarbled : engine.garbledOut = true) :
      WatchEscapes limit engine (.fault .badValue)
  /-- The report does not end, and the timer cannot be set so far ahead. -/
  | endless (hnever : limit.map Limit.alarm = some .never)
      (hread : Progress.Readable engine.lines) (htext : engine.garbledOut = false)
      (hhangs : engine.hangs = true) : WatchEscapes limit engine (.fault .endless)
  /-- The engine ends by itself, and its complaints are no text. -/
  | garbledErr (hgoes : limit.map Limit.alarm ≠ some .atOnce)
      (hread : Progress.Readable engine.lines) (htext : engine.garbledOut = false)
      (hends : (engine.hangs && limit.isSome) = false) (hgarbled : engine.garbledErr = true) :
      WatchEscapes limit engine (.fault .badValue)

/-- How a failure escapes a run of the engine. -/
inductive RunEscapes (shown : Bool) (command : List String) (limit : Option Number)
    (engine : Behaviour) : Failure → Prop
  /-- A word of the command cannot be handed to a program. -/
  | command (hword : isSendable command = false) :
      RunEscapes shown command limit engine (.fault .badValue)
  | waiting {failure : Failure} (hstarts : starts command engine = true) (hquiet : shown = false)
      (hwait : WaitFails limit engine failure) : RunEscapes shown command limit engine failure
  | watching {failure : Failure} (hstarts : starts command engine = true) (hshown : shown = true)
      (hwatch : WatchEscapes limit engine failure) : RunEscapes shown command limit engine failure

/-- How a failure escapes while the output is made. -/
inductive MakingEscapes (plan : Plan Number) (config : Config) (shown : Bool)
    (command : List String) (host : Host) : Failure → Prop
  /-- The output is to be in a directory that is not there and cannot be made. -/
  | directory {failure : Failure}
      (hnamed : (Path.parent plan.target).isEmpty = false)
      (hmissing : host.isDirectory (Path.parent plan.target) = false)
      (hrefused :
        (host.files.makePath host.place (Path.parent plan.target)).2 = .error failure) :
      MakingEscapes plan config shown command host failure
  | running {failure : Failure} (hready : ready plan host = .ok ())
      (hrun : RunEscapes shown command config.timeout host.engine failure) :
      MakingEscapes plan config shown command host failure

/-- How a failure escapes a render of a plan. -/
inductive Escapes (plan : Plan Number) (config : Config) (host : Host) : Failure → Prop
  /-- The system does not let a temporary input go. -/
  | removal (hheld : (swept plan (commandOf plan config host) host).2 = false) :
      Escapes plan config host .system
  | making {failure : Failure} (hgone : (swept plan (commandOf plan config host) host).2 = true)
      (hmaking : MakingEscapes plan config (shows config host) (commandOf plan config host) host
        failure) :
      Escapes plan config host failure
  /-- The output is made, but there are no whole seconds between the readings of the clock. -/
  | clock {fault : Fault} (hgone : (swept plan (commandOf plan config host) host).2 = true)
      (hproduced :
        produced plan config (shows config host) (commandOf plan config host) host = .ok ())
      (hclock : clocked host.times = .error fault) :
      Escapes plan config host (.fault fault)

theorem ready_eq_error_iff :
    ready plan host = .error failure ↔
      (Path.parent plan.target).isEmpty = false ∧
        host.isDirectory (Path.parent plan.target) = false ∧
        (host.files.makePath host.place (Path.parent plan.target)).2 = .error failure := by
  unfold ready
  dsimp only
  cases (Path.parent plan.target).isEmpty with
  | true => simp
  | false =>
      cases host.isDirectory (Path.parent plan.target) with
      | true => simp
      | false => simp

/-- A failure that is not expected: neither of the engine nor of the compilation. -/
def Unexpected (failure : Failure) : Prop := failure = .system ∨ ∃ fault, failure = .fault fault

theorem Unexpected.isEngine (h : Unexpected failure) : failure.isEngine = false := by
  rcases h with rfl | ⟨fault, rfl⟩ <;> rfl

theorem Unexpected.isCompilation (h : Unexpected failure) : failure.isCompilation = false := by
  rcases h with rfl | ⟨fault, rfl⟩ <;> rfl

theorem unexpected_of_ready_error (h : ready plan host = .error failure) : Unexpected failure := by
  obtain ⟨-, -, hrefused⟩ := ready_eq_error_iff.1 h
  rcases FileTree.of_makePath_error hrefused with rfl | rfl | rfl
  · exact .inl rfl
  · exact .inr ⟨_, rfl⟩
  · exact .inr ⟨_, rfl⟩

theorem WatchEscapes.unexpected (h : WatchEscapes limit engine failure) : Unexpected failure := by
  cases h with
  | unnamed => exact .inr ⟨_, rfl⟩
  | position => exact .inr ⟨_, rfl⟩
  | garbledOut => exact .inr ⟨_, rfl⟩
  | endless => exact .inr ⟨_, rfl⟩
  | garbledErr => exact .inr ⟨_, rfl⟩

theorem RunEscapes.unexpected (h : RunEscapes shown command limit engine failure) :
    Unexpected failure := by
  cases h with
  | command => exact .inr ⟨_, rfl⟩
  | waiting _ _ hwait => exact .inr hwait.exists_fault
  | watching _ _ hwatch => exact hwatch.unexpected

theorem MakingEscapes.unexpected (h : MakingEscapes plan config shown command host failure) :
    Unexpected failure := by
  cases h with
  | directory hnamed hmissing hrefused =>
      exact unexpected_of_ready_error (ready_eq_error_iff.2 ⟨hnamed, hmissing, hrefused⟩)
  | running _ hrun => exact hrun.unexpected

theorem Escapes.unexpected (h : Escapes plan config host failure) : Unexpected failure := by
  cases h with
  | removal => exact .inl rfl
  | making _ hmaking => exact hmaking.unexpected
  | clock => exact .inr ⟨_, rfl⟩

/-- A time limit is named in the message unless it has too many digits. -/
theorem timedOut_escapes_iff :
    (timedOut limit = failure ∧ failure.isEngine = false) ↔
      limit.any Number.isTooLong = true ∧ failure = .fault .badValue := by
  unfold timedOut
  split
  · next hlong =>
      constructor
      · rintro ⟨rfl, -⟩
        exact ⟨hlong, rfl⟩
      · rintro ⟨-, rfl⟩
        exact ⟨rfl, rfl⟩
  · next hshort =>
      constructor
      · rintro ⟨rfl, hother⟩
        cases hother
      · rintro ⟨hlong, -⟩
        exact absurd hlong hshort

/-- A time limit that stops an engine which is waited for can be named. -/
theorem isTooLong_of_timedOut (h : awaitEnd engine limit = .ok .timedOut) :
    limit.any Number.isTooLong = false := by
  cases limit with
  | none => rfl
  | some seconds =>
      refine eq_false_of_ne_true fun hlong => ?_
      rw [awaitEnd, stops, Limit.fault_of_isTooLong hlong] at h
      cases h

/-- What escapes while the end of the engine is waited for. -/
theorem waited_escapes_iff :
    (ended false limit engine = .error failure ∧ failure.isEngine = false) ↔
      WaitFails limit engine failure := by
  have hended : ended false limit engine = awaitEnd engine limit >>= exitOf limit :=
    if_neg Bool.false_ne_true
  rw [hended, ← awaitEnd_eq_error_iff]
  constructor
  · rintro ⟨hfailed, hother⟩
    rcases Ends.of_bind_error hfailed with hwait | ⟨outcome, hwait, hexit⟩
    · exact hwait
    · cases outcome with
      | refused reason =>
          cases hexit
          cases hother
      | timedOut =>
          -- An engine that is stopped is complained of, with its limit.
          obtain ⟨hlong, -⟩ := timedOut_escapes_iff.1 ⟨Except.error.inj hexit, hother⟩
          cases (isTooLong_of_timedOut hwait).symm.trans hlong
      | ended code stdout stderr => cases hexit
  · intro hwait
    obtain ⟨fault, rfl⟩ := (awaitEnd_eq_error_iff.1 hwait).exists_fault
    exact ⟨Ends.error_bind hwait, rfl⟩

/-- An engine that is not stopped at once is read to its end, or up to what cannot be read. -/
theorem watch_of_goes (h : limit.map Limit.alarm ≠ some .atOnce) :
    (watch engine limit).2 =
      match (Progress.positions engine.lines).2 with
      | some fault => .error (.fault fault)
      | none =>
        if engine.garbledOut then .error (.fault .badValue)
        else if engine.hangs && limit.map Limit.alarm == some .inTime then .error (timedOut limit)
        else if engine.hangs && limit.map Limit.alarm == some .never then .error (.fault .endless)
        else if engine.garbledErr then .error (.fault .badValue)
        else .ok (engine.code, engine.stderr) := by
  unfold watch
  split
  · next hatOnce => exact absurd hatOnce h
  · rfl

/-- What comes of an engine whose report can be read. -/
theorem watch_of_readable (hread : Progress.Readable engine.lines)
    (hgoes : limit.map Limit.alarm ≠ some .atOnce) :
    (watch engine limit).2 =
      if engine.garbledOut then .error (.fault .badValue)
      else if engine.hangs && limit.map Limit.alarm == some .inTime then .error (timedOut limit)
      else if engine.hangs && limit.map Limit.alarm == some .never then .error (.fault .endless)
      else if engine.garbledErr then .error (.fault .badValue)
      else .ok (engine.code, engine.stderr) := by
  rcases Progress.positions_fault engine.lines with ⟨hnone, -⟩ | ⟨-, hnot⟩
  · rw [watch_of_goes hgoes, hnone]
  · exact absurd hread hnot

/-- What escapes from an engine that is stopped at once. -/
theorem stopped_escapes_iff (h : limit.map Limit.alarm = some .atOnce) :
    ((watch engine limit).2 = .error failure ∧ failure.isEngine = false) ↔
      WatchEscapes limit engine failure := by
  obtain ⟨seconds, rfl, halarm⟩ := Option.map_eq_some_iff.1 h
  have hwatch : (watch engine (some seconds)).2 = .error (timedOut (some seconds)) := by
    unfold watch
    rw [h]
  rw [hwatch, Except.error.injEq, timedOut_escapes_iff]
  constructor
  · rintro ⟨hlong, rfl⟩
    exact .unnamed rfl halarm hlong
  · rintro (⟨hlimit, -, hlong⟩ | ⟨hgoes⟩ | ⟨hgoes⟩ | ⟨hnever⟩ | ⟨hgoes⟩)
    · cases hlimit
      exact ⟨hlong, rfl⟩
    · exact absurd h hgoes
    · exact absurd h hgoes
    · cases h.symm.trans hnever
    · exact absurd h hgoes

/-- A time limit that a timer is set to, and that does not run out at once, can be named. -/
theorem isTooLong_of_inTime (h : limit.map Limit.alarm = some .inTime) :
    limit.any Number.isTooLong = false := by
  obtain ⟨seconds, rfl, halarm⟩ := Option.map_eq_some_iff.1 h
  exact Limit.isTooLong_of_inTime halarm

/-- No alarm stops an engine that ends by itself. -/
theorem no_alarm_of_ends (hends : (engine.hangs && limit.isSome) = false) (alarm : Limit.Alarm) :
    (engine.hangs && limit.map Limit.alarm == some alarm) = false := by
  cases limit with
  | none => exact Bool.and_false _
  | some seconds =>
      rw [Option.isSome_some, Bool.and_true] at hends
      rw [hends, Bool.false_and]

/-- An engine that is stopped by no alarm ends by itself, or there is no limit. -/
theorem ends_of_no_alarm (hgoes : limit.map Limit.alarm ≠ some .atOnce)
    (hinTime : (engine.hangs && limit.map Limit.alarm == some .inTime) = false)
    (hnever : (engine.hangs && limit.map Limit.alarm == some .never) = false) :
    (engine.hangs && limit.isSome) = false := by
  cases limit with
  | none => exact Bool.and_false _
  | some seconds =>
      rw [Option.isSome_some, Bool.and_true]
      refine eq_false_of_ne_true fun hhangs => ?_
      rw [hhangs, Bool.true_and, Option.map_some] at hinTime hnever
      -- An engine that hangs is stopped by whichever alarm its limit sets.
      cases halarm : Limit.alarm seconds with
      | atOnce => exact hgoes (congrArg some halarm)
      | inTime =>
          rw [halarm, beq_self_eq_true] at hinTime
          cases hinTime
      | never =>
          rw [halarm, beq_self_eq_true] at hnever
          cases hnever

/-- What escapes from an engine whose report can be read. -/
theorem reported_escapes_iff (hgoes : limit.map Limit.alarm ≠ some .atOnce)
    (hread : Progress.Readable engine.lines) :
    ((watch engine limit).2 = .error failure ∧ failure.isEngine = false) ↔
      WatchEscapes limit engine failure := by
  rw [watch_of_readable hread hgoes]
  constructor
  · split
    · next hgarbled =>
        rintro ⟨⟨⟩, -⟩
        exact .garbledOut hgoes hread hgarbled
    · next htext =>
        have htext := eq_false_of_ne_true htext
        split
        · next hstopped =>
            -- A time-out is a failure of the engine.
            rintro ⟨⟨⟩, hother⟩
            simp only [Bool.and_eq_true, beq_iff_eq] at hstopped
            obtain ⟨hlong, -⟩ := timedOut_escapes_iff.1 ⟨rfl, hother⟩
            cases (isTooLong_of_inTime hstopped.2).symm.trans hlong
        · next hinTime =>
            split
            · next hnever =>
                rintro ⟨⟨⟩, -⟩
                simp only [Bool.and_eq_true, beq_iff_eq] at hnever
                exact .endless hnever.2 hread htext hnever.1
            · next hnever =>
                have hends := ends_of_no_alarm hgoes (eq_false_of_ne_true hinTime)
                  (eq_false_of_ne_true hnever)
                split
                · next hgarbled =>
                    rintro ⟨⟨⟩, -⟩
                    exact .garbledErr hgoes hread htext hends hgarbled
                · rintro ⟨⟨⟩, -⟩
  · rintro (⟨hlimit, halarm, -⟩ | ⟨-, hline, htold, hlarge⟩ | ⟨-, -, hgarbled⟩ |
      ⟨hnever, -, htext, hhangs⟩ | ⟨-, -, htext, hends, hgarbled⟩)
    · exact absurd (congrArg (Option.map Limit.alarm) hlimit |>.trans (congrArg some halarm)) hgoes
    · cases (hread _ hline _ htold).symm.trans hlarge
    · rw [hgarbled]
      exact ⟨rfl, rfl⟩
    · rw [htext, hhangs, hnever]
      exact ⟨rfl, rfl⟩
    · rw [htext, no_alarm_of_ends hends, no_alarm_of_ends hends, hgarbled]
      exact ⟨rfl, rfl⟩

/-- What escapes while the report of the engine is read. -/
theorem watched_escapes_iff :
    (ended true limit engine = .error failure ∧ failure.isEngine = false) ↔
      WatchEscapes limit engine failure := by
  have hended : ended true limit engine = (watch engine limit).2 := if_pos rfl
  rw [hended]
  by_cases hgoes : limit.map Limit.alarm = some .atOnce
  · exact stopped_escapes_iff hgoes
  · rcases Progress.positions_fault engine.lines with ⟨-, hread⟩ | ⟨hsome, hnot⟩
    · exact reported_escapes_iff hgoes hread
    · -- A position cannot be read, and nothing behind it counts.
      rw [watch_of_goes hgoes, hsome]
      constructor
      · rintro ⟨⟨⟩, -⟩
        simp only [Progress.Readable, not_forall, Bool.not_eq_true] at hnot
        obtain ⟨line, hline, n, htold, hlarge⟩ := hnot
        exact .position hgoes hline htold hlarge
      · rintro (⟨hlimit, halarm, -⟩ | - | ⟨-, hread⟩ | ⟨-, hread⟩ | ⟨-, hread⟩)
        · exact absurd (congrArg (Option.map Limit.alarm) hlimit |>.trans (congrArg some halarm))
            hgoes
        · exact ⟨rfl, rfl⟩
        · exact absurd hread hnot
        · exact absurd hread hnot
        · exact absurd hread hnot

/-- What escapes from a run of the engine. -/
theorem ran_escapes_iff :
    (ran shown command limit engine = .error failure ∧ failure.isEngine = false) ↔
      RunEscapes shown command limit engine failure := by
  unfold ran
  cases hsendable : isSendable command with
  | false =>
      have hidle : starts command engine ≠ true := by
        rw [starts, hsendable]
        exact Bool.false_ne_true
      constructor
      · rintro ⟨⟨⟩, -⟩
        exact .command hsendable
      · rintro (- | ⟨hstarts, -⟩ | ⟨hstarts, -⟩)
        · exact ⟨rfl, rfl⟩
        · exact absurd hstarts hidle
        · exact absurd hstarts hidle
  | true =>
      rw [if_pos rfl]
      cases hrefusal : engine.refusal with
      | some reason =>
          -- That it does not start is a failure of the engine.
          have hidle : starts command engine ≠ true := by
            rw [starts, hsendable, hrefusal]
            exact Bool.false_ne_true
          constructor
          · rintro ⟨⟨⟩, hother⟩
            cases hother
          · rintro (hword | ⟨hstarts, -⟩ | ⟨hstarts, -⟩)
            · cases hsendable.symm.trans hword
            · exact absurd hstarts hidle
            · exact absurd hstarts hidle
      | none =>
          have hstarts : starts command engine = true := by
            rw [starts, hsendable, hrefusal]
            rfl
          cases shown with
          | false =>
              rw [waited_escapes_iff]
              constructor
              · exact fun hwait => .waiting hstarts rfl hwait
              · rintro (hword | ⟨-, -, hwait⟩ | ⟨-, hother, -⟩)
                · cases hsendable.symm.trans hword
                · exact hwait
                · cases hother
          | true =>
              rw [watched_escapes_iff]
              constructor
              · exact fun hwatch => .watching hstarts rfl hwatch
              · rintro (hword | ⟨-, hother, -⟩ | ⟨-, -, hwatch⟩)
                · cases hsendable.symm.trans hword
                · cases hother
                · exact hwatch

/-- A bad exit and a missing output are failures of the engine. -/
theorem isEngine_of_judged_error {exit : Int × String}
    (h : judged plan host exit = .error failure) : failure.isEngine = true := by
  unfold judged at h
  split at h
  · cases h
    rfl
  · split at h
    · cases h
      rfl
    · cases h

/-- What escapes while the output is made. -/
theorem produced_escapes_iff :
    (produced plan config shown command host = .error failure ∧ failure.isEngine = false) ↔
      MakingEscapes plan config shown command host failure := by
  unfold produced
  cases hready : ready plan host with
  | error refused =>
      obtain ⟨hnamed, hmissing, hrefused⟩ := ready_eq_error_iff.1 hready
      have hmaking : MakingEscapes plan config shown command host refused :=
        .directory hnamed hmissing hrefused
      rw [Ends.error_bind rfl]
      constructor
      · rintro ⟨⟨⟩, -⟩
        exact hmaking
      · rintro (⟨-, -, hother⟩ | ⟨hgoes, -⟩)
        · cases hrefused.symm.trans hother
          exact ⟨rfl, hmaking.unexpected.isEngine⟩
        · cases hready.symm.trans hgoes
  | ok =>
      rw [Ends.ok_bind rfl]
      constructor
      · -- Behind the run nothing escapes, so what escapes escapes the run.
        rintro ⟨hfailed, hother⟩
        refine .running hready (ran_escapes_iff.1 ⟨?_, hother⟩)
        rcases Ends.of_bind_error hfailed with hran | ⟨exit, -, hjudged⟩
        · exact hran
        · cases (isEngine_of_judged_error hjudged).symm.trans hother
      · rintro (⟨hnamed, hmissing, hrefused⟩ | ⟨-, hrun⟩)
        · cases hready.symm.trans (ready_eq_error_iff.2 ⟨hnamed, hmissing, hrefused⟩)
        · obtain ⟨hran, hother⟩ := ran_escapes_iff.2 hrun
          exact ⟨Ends.error_bind hran, hother⟩

/-- The clock is looked at only when the output is made, and the output is asked for only when
the temporary inputs are gone. -/
theorem outcome_escapes_iff :
    (outcome plan config host = .error failure ∧ failure.isEngine = false) ↔
      Escapes plan config host failure := by
  unfold outcome cleaned
  cases hgone : (swept plan (commandOf plan config host) host).2 with
  | false =>
      rw [if_neg Bool.false_ne_true, Ends.error_bind rfl]
      constructor
      · rintro ⟨⟨⟩, -⟩
        exact .removal hgone
      · rintro (- | ⟨hswept, -⟩ | ⟨hswept, -⟩)
        · exact ⟨rfl, rfl⟩
        · cases hgone.symm.trans hswept
        · cases hgone.symm.trans hswept
  | true =>
      rw [if_pos rfl]
      cases hproduced : produced plan config (shows config host) (commandOf plan config host) host
        with
      | error stopped =>
          rw [Ends.error_bind rfl, Except.error.injEq]
          constructor
          · rintro ⟨rfl, hother⟩
            exact .making hgone (produced_escapes_iff.1 ⟨hproduced, hother⟩)
          · rintro (hheld | ⟨-, hmaking⟩ | ⟨-, hmade, -⟩)
            · cases hgone.symm.trans hheld
            · obtain ⟨hfailed, hother⟩ := produced_escapes_iff.2 hmaking
              cases hproduced.symm.trans hfailed
              exact ⟨rfl, hother⟩
            · cases hproduced.symm.trans hmade
      | ok =>
          rw [Ends.ok_bind rfl]
          -- The output is made, so that only the clock is left to fail.
          have hmaking (h : MakingEscapes plan config (shows config host)
              (commandOf plan config host) host failure) : False := by
            obtain ⟨hfailed, -⟩ := produced_escapes_iff.2 h
            cases hproduced.symm.trans hfailed
          cases hclock : clocked host.times with
          | error fault =>
              constructor
              · rintro ⟨⟨⟩, -⟩
                exact .clock hgone hproduced hclock
              · rintro (hheld | ⟨-, hescapes⟩ | ⟨-, -, hother⟩)
                · cases hgone.symm.trans hheld
                · exact (hmaking hescapes).elim
                · cases hclock.symm.trans hother
                  exact ⟨rfl, rfl⟩
          | ok seconds =>
              constructor
              · rintro ⟨⟨⟩, -⟩
              · rintro (hheld | ⟨-, hescapes⟩ | ⟨-, -, hother⟩)
                · cases hgone.symm.trans hheld
                · exact (hmaking hescapes).elim
                · cases hclock.symm.trans hother

/-- A failure of the engine comes after the engine was called, and after the temporary inputs are
gone. -/
theorem called_of_isEngine (h : outcome plan config host = .error failure)
    (hengine : failure.isEngine = true) :
    ready plan host = .ok () ∧ isSendable (commandOf plan config host) = true ∧
      (swept plan (commandOf plan config host) host).2 = true := by
  have hescapes : ¬ Escapes plan config host failure := fun hescapes => by
    cases hescapes.unexpected.isEngine.symm.trans hengine
  -- What goes wrong before the call would escape, as would the failure of a removal.
  cases hgone : (swept plan (commandOf plan config host) host).2 with
  | false =>
      rw [outcome, cleaned, hgone, if_neg Bool.false_ne_true, Ends.error_bind rfl] at h
      cases h
      exact absurd (.removal hgone) hescapes
  | true =>
      rw [outcome, cleaned, hgone, if_pos rfl] at h
      cases hready : ready plan host with
      | error refused =>
          rw [produced, hready, Ends.error_bind (Ends.error_bind rfl)] at h
          cases h
          obtain ⟨hnamed, hmissing, hrefused⟩ := ready_eq_error_iff.1 hready
          exact absurd (.making hgone (.directory hnamed hmissing hrefused)) hescapes
      | ok =>
          cases hsendable : isSendable (commandOf plan config host) with
          | true => exact ⟨rfl, rfl, rfl⟩
          | false =>
              have hran : ran (shows config host) (commandOf plan config host) config.timeout
                  host.engine = .error (.fault .badValue) := by
                rw [ran, hsendable, if_neg Bool.false_ne_true]
              rw [produced, hready, Ends.ok_bind rfl, hran,
                Ends.error_bind (Ends.error_bind rfl)] at h
              cases h
              exact absurd (.making hgone (.running hready (.command hsendable))) hescapes

/-- No render fails with a failure of the compilation. -/
theorem isCompilation_of_outcome (h : outcome plan config host = .error failure) :
    failure.isCompilation = false := by
  cases hengine : failure.isEngine with
  | true => cases failure <;> first | rfl | cases hengine
  | false => exact (outcome_escapes_iff.1 ⟨h, hengine⟩).unexpected.isCompilation

/-- The command line hands on what escapes a render. -/
theorem Escapes.settle (h : Escapes plan config host failure) :
    CommandLine.settle failure = throw failure := by
  rcases h.unexpected with rfl | ⟨fault, rfl⟩ <;> rfl

/-- A machine with one clip among the uploads. -/
def uploadHost : Host :=
  { files := ⟨[(["work".toList], .directory), (["work".toList, "uploads".toList], .directory),
      (["work".toList, "uploads".toList, "a.mp4".toList], .file "" 0)]⟩ }

end Render

end Montage
