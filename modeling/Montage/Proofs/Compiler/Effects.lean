import Montage.Proofs.Compiler.Failures
import Montage.Proofs.Render.Outcome

/-!
# What a compilation does to the host

Before the engine is called, the only thing that is done to the host is to run the prober, and
that at most once (`OnlyProbed`).  Whatever a request is, and whatever comes of it, its
compilation and its description leave the host in that way.
-/

namespace Montage

/-- What a run leaves that did no more than print, complain and run the prober, at most once. -/
inductive OnlyProbed (host : Host) : Host → Prop
  | untouched (printed complaints : String) : OnlyProbed host { host with printed, complaints }
  | probed (command : List String) (limit : Option Number) (printed complaints : String) :
    OnlyProbed host { host with
      events := host.events ++ [.run .prober command limit], files := host.afterRun .prober,
      printed, complaints }

namespace OnlyProbed

variable {host after : Host}

/-- No line that is printed or complained makes a difference. -/
theorem said (h : OnlyProbed host after) (printed complaints : String) :
    OnlyProbed host { after with printed, complaints } := by
  cases h with
  | untouched => exact .untouched printed complaints
  | probed command limit => exact .probed command limit printed complaints

/-- The engine was not called. -/
theorem commands (h : OnlyProbed host after) : after.commands = host.commands := by
  cases h with
  | untouched => rfl
  | probed command limit printed complaints =>
      exact (Render.commands_append host [.run .prober command limit]).trans (List.append_nil _)

/-- The files are as they were, or as the prober left them. -/
theorem files (h : OnlyProbed host after) :
    after.files = host.files ∨ after.files = host.afterRun .prober := by
  cases h with
  | untouched => exact .inl rfl
  | probed => exact .inr rfl

end OnlyProbed

namespace Media

variable {config : Config} {clip : Clip} {host : Host}

/-- A report is one run of the prober, unless the system does not take the command. -/
theorem onlyProbed_report (config : Config) (clip : Clip) (host : Host) (printed : String) :
    OnlyProbed host ((report config clip).runOn { host with printed }).2 := by
  rw [report_eq, Action.runOn_bind_lift, Action.runOn_runTool]
  unfold Action.hostAfter
  split
  · exact .probed _ _ printed host.complaints
  · exact .untouched printed host.complaints

theorem onlyProbed_format (config : Config) (clip : Clip) (host : Host) (printed : String) :
    OnlyProbed host ((format config clip).runOn { host with printed }).2 := by
  rw [format, Action.runOn_bind_lift]
  exact onlyProbed_report config clip host printed

theorem failsEarly_readReport (clip : Clip) (code : Int) (stdout stderr : String) :
    FailsEarly (readReport clip code stdout stderr) := by
  unfold readReport
  extract_lets rest
  have hrest : FailsEarly (rest ()) := by
    simp only [rest]
    split
    · exact .error rfl
    · exact .error rfl
    · exact .ok _
    · exact .error rfl
  exact .ite (.ite (.thrown rfl) (.thrown rfl)) hrest

/-- A report fails as a probe, or with a fault. -/
theorem failsEarly_format (config : Config) (clip : Clip) (host : Host) :
    FailsEarly ((format config clip).result host) := by
  rw [result_format]
  have hrun : FailsEarly
      (Action.outcomeOf (command config clip) host.prober config.timeout) := by
    intro failure hfailed
    obtain ⟨fault, rfl⟩ := (Action.outcomeOf_eq_error_iff.1 hfailed).exists_fault
    rfl
  refine hrun.bind fun outcome => .bind ?_ fun entries => ?_
  · cases outcome with
    | refused reason => exact .error rfl
    | timedOut => exact .error rfl
    | ended code stdout stderr => exact failsEarly_readReport clip code stdout stderr
  · unfold formatOf
    split
    · exact .ok _
    · exact .error rfl

theorem failsEarly_durationOf (clip : Clip) (format : Request) :
    FailsEarly (durationOf clip format) := by
  refine (Value.failsEarly_toFloat? _).bind fun length => ?_
  cases length with
  | none => exact (Value.failsEarly_quoted _).bind fun _ => .error rfl
  | some x => exact .ite (.error rfl) (.ok _)

end Media

namespace Compiler

open Montage.Action

theorem ask_eq (config : Config) (clip : Clip) :
    ask config clip = Media.format config clip >>= fun entries =>
      liftM (Media.durationOf clip entries >>= fun length => .ok (some (.float length))) := by
  rw [ask, Media.duration, bind_assoc]
  refine bind_congr fun entries => ?_
  cases Media.durationOf clip entries <;> rfl

theorem failsEarly_ask (config : Config) (clip : Clip) (host : Host) :
    FailsEarly ((ask config clip).result host) := by
  rw [ask_eq, result_bind_lift]
  exact (Media.failsEarly_format config clip host).bind fun entries =>
    (Media.failsEarly_durationOf clip entries).bind fun _ => .ok _

theorem onlyProbed_ask (config : Config) (clip : Clip) (host : Host) (printed : String) :
    OnlyProbed host ((ask config clip).runOn { host with printed }).2 := by
  rw [ask_eq, runOn_bind_lift]
  exact Media.onlyProbed_format config clip host printed

/-- **A compilation does no more than print and ask the prober**, whatever comes of it. -/
theorem onlyProbed_compile (c : Compiler) (request : Request) (config : Config) (host : Host) :
    OnlyProbed host ((c.compile request (ask config)).runOn host).2 := by
  cases hdraft : (c.draft request).result host with
  | error failure =>
      obtain ⟨printed, hcompile⟩ := compile_of_error hdraft
      rw [hcompile]
      exact .untouched printed host.complaints
  | ok draft =>
      cases draft with
      | settled outcome =>
          obtain ⟨printed, hcompile⟩ := compile_of_settled hdraft
          rw [hcompile]
          exact .untouched printed host.complaints
      | awaiting clip resume =>
          obtain ⟨printed, hcompile⟩ := compile_of_awaiting hdraft
          rw [hcompile, runOn_bind_lift]
          exact onlyProbed_ask config clip host printed

/-- A description is refused before anything is done, or it is what the prober says of a clip. -/
theorem info_cases (c : Compiler) (request : Request) (host : Host) :
    (∃ failure, failure.isEngine = false ∧ (c.info request).runOn host = (.error failure, host)) ∨
      ∃ clip, (c.info request).runOn host = (Media.format c.config clip).runOn host := by
  unfold info
  cases hname : Request.requiredName request ["filename"] with
  | error failure =>
      have hearly := (Request.refusesOnly_requiredName request ["filename"]).failsEarly
      exact .inl ⟨failure, hearly failure hname, rfl⟩
  | ok name =>
      cases hclip : Resolver.resolve host c.directories (.text name) with
      | error failure =>
          have hfind : (c.find (.text name)).runOn host = (.error failure, host) :=
            Prod.ext hclip rfl
          exact .inl ⟨failure, (Resolver.resolve_fails failure hclip).isEngine_eq_false,
            (runOn_bind rfl).trans (runOn_bind_error hfind)⟩
      | ok clip =>
          have hfind : (c.find (.text name)).runOn host = (.ok clip, host) := Prod.ext hclip rfl
          exact .inr ⟨clip, (runOn_bind rfl).trans (runOn_bind hfind)⟩

theorem onlyProbed_info (c : Compiler) (request : Request) (host : Host) :
    OnlyProbed host ((c.info request).runOn host).2 := by
  rcases info_cases c request host with ⟨failure, -, hinfo⟩ | ⟨clip, hinfo⟩
  · rw [hinfo]
    exact .untouched host.printed host.complaints
  · rw [hinfo]
    exact Media.onlyProbed_format c.config clip host host.printed

theorem failsEarly_info (c : Compiler) (request : Request) (host : Host) :
    FailsEarly ((c.info request).result host) := by
  rcases info_cases c request host with ⟨failure, hearly, hinfo⟩ | ⟨clip, hinfo⟩
  · rw [result, hinfo]
    exact .error hearly
  · rw [result, hinfo]
    exact Media.failsEarly_format c.config clip host

end Compiler

end Montage
