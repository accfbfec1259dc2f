import Montage.Media
import Montage.Proofs.Host.Action
import Montage.Proofs.Request.Fields

/-!
# What a probe comes to

Whatever the probing tool does, its report is read or the probe fails with a failure of its own,
unless the tool cannot be run, or writes what is no text, or nests it too deep (`BreaksReport`).
Beyond that only a length that is a whole number too large for a double, or a value that cannot
be shown, crashes the program.
-/

namespace Montage

namespace Media

/-- The report in the outcome of a run. -/
def reportOf (config : Config) (clip : Clip) : Action.Outcome → Except Failure Request
  | .refused reason => .error (.probe clip.path (.reported reason.message))
  | .timedOut =>
    .error (.probe clip.path (.reported (timeoutText (command config clip) config.timeout)))
  | .ended code stdout stderr => readReport clip code stdout stderr

/-- To report on a clip is to run the tool and then to read what it says. -/
theorem report_eq (config : Config) (clip : Clip) :
    report config clip = Action.runTool .prober (command config clip) config.timeout >>=
      fun outcome => liftM (reportOf config clip outcome) := by
  unfold report
  simp only
  congr 1
  funext outcome
  cases outcome <;> rfl

theorem result_report (config : Config) (clip : Clip) (host : Host) :
    (report config clip).result host =
      (Action.outcomeOf (command config clip) host.prober config.timeout >>=
        reportOf config clip) := by
  -- The event that is noted and the files that are written do not matter to the report.
  rw [report_eq, Action.result_bind_lift, Action.result_runTool]
  rfl

/-- The container in a report depends on the tool only. -/
theorem result_format (config : Config) (clip : Clip) (host : Host) :
    (format config clip).result host =
      (Action.outcomeOf (command config clip) host.prober config.timeout >>=
        fun outcome => reportOf config clip outcome >>= formatOf clip) := by
  rw [format, Action.result_bind_lift, result_report]
  cases Action.outcomeOf (command config clip) host.prober config.timeout <;> rfl

/-- How a report breaks off: the tool is not run to its end, or its report is nested too deep to
be read. -/
inductive BreaksReport (config : Config) (clip : Clip) (prober : Behaviour) : Failure → Prop
  | run {failure : Failure}
      (h : Action.RunFails (command config clip) config.timeout prober failure) :
      BreaksReport config clip prober failure
  | nested {stdout stderr : String}
      (hended : Action.outcomeOf (command config clip) prober config.timeout =
        .ok (.ended 0 stdout stderr))
      (hdeep : Json.NestsTooDeep stdout) : BreaksReport config clip prober (.fault .endless)

/-- A report that breaks off fails with a fault, which is no failure of the probe. -/
theorem BreaksReport.exists_fault {config : Config} {clip : Clip} {prober : Behaviour}
    {failure : Failure} (h : BreaksReport config clip prober failure) :
    ∃ fault, failure = .fault fault := by
  cases h with
  | run h => exact h.exists_fault
  | nested => exact ⟨_, rfl⟩

theorem result_of_breaksReport {config : Config} {clip : Clip} {host : Host} {failure : Failure}
    (h : BreaksReport config clip host.prober failure) :
    (format config clip).result host = .error failure := by
  rw [result_format]
  cases h with
  | run h => exact Ends.error_bind (Action.outcomeOf_eq_error_iff.2 h)
  | nested hended hdeep =>
      obtain ⟨remaining, hread⟩ := hdeep
      rw [Ends.ok_bind hended]
      simp only [reportOf, readReport, hread]
      rfl

end Media

end Montage
