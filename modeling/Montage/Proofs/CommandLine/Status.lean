import Montage.Proofs.CommandLine.Loading
import Montage.Proofs.Compiler.Effects
import Montage.Proofs.Render.Cleanup
import Montage.Proofs.Render.Escapes

/-!
# What an exit status tells

The program refuses a request with one exit status and reports a failure of the engine with
another.  Before the engine is called at most the prober is run, and nothing fails like the
engine; once it is called, nothing fails like a request.  So the exit status tells what has been
done to the machine (`run_reports`).
-/

namespace Montage.CommandLine

open Montage.Action

/-- Of the arguments and the request that is loaded, one asks to show something and to carry
nothing out. -/
def ShowsOnly (arguments : Arguments) (host : Host) : Prop :=
  arguments.dumpPlan = true ∨ arguments.dryRun = true ∨
    ∃ config request, loaded arguments host = .ok (config, request) ∧
      request.field ["operation"] = .text "info"

/-- A request is loaded and compiled to a plan, which leaves this host. -/
structure Compiles (arguments : Arguments) (host : Host) (config : Config) (plan : Plan Number)
    (compiled : Host) : Prop where
  loads : ∃ request, loaded arguments host = .ok (config, request) ∧
    ((Compiler.ofConfig config).compile request (Compiler.ask config)).runOn host =
      (.ok plan, compiled)
  probed : OnlyProbed host compiled

/-- How the work on a request ends. -/
inductive Works (arguments : Arguments) (host : Host) : Except Failure Nat → Host → Prop
  /-- It stops before the engine is called. -/
  | stopped {failure : Failure} {after : Host} (hearly : failure.isEngine = false)
      (hprobed : OnlyProbed host after) : Works arguments host (.error failure) after
  /-- It shows something. -/
  | shown {after : Host} (hprobed : OnlyProbed host after) (hshows : ShowsOnly arguments host) :
      Works arguments host (.ok 0) after
  /-- It renders a plan. -/
  | rendered {config : Config} {plan : Plan Number} {compiled rendered : Host}
      {result : Except Failure String} (printed : String)
      (hcarried : ¬ ShowsOnly arguments host)
      (hcompiles : Compiles arguments host config plan compiled)
      (haccounts : Render.Accounts plan config compiled result rendered) :
      Works arguments host (result.map fun _ => 0) { rendered with printed }

section

variable {arguments : Arguments} {host : Host} {config : Config} {request : Request}

theorem describe_works (hloaded : loaded arguments host = .ok (config, request))
    (hinfo : request.field ["operation"] = .text "info") :
    Leaves (do
      print (Yaml.print (.map (← (Compiler.ofConfig config).info request)))
      return 0) host (Works arguments host) := by
  have hprobed := Compiler.onlyProbed_info (Compiler.ofConfig config) request host
  have hearly := Compiler.failsEarly_info (Compiler.ofConfig config) request host
  rw [leaves_bind, Leaves]
  rw [result] at hearly
  rcases hrun : ((Compiler.ofConfig config).info request).runOn host with ⟨failure | entries, after⟩
  · rw [hrun] at hprobed hearly
    exact .stopped (hearly failure rfl) hprobed
  · rw [hrun] at hprobed
    exact .shown (hprobed.said _ after.complaints) (.inr (.inr ⟨config, request, hloaded, hinfo⟩))

theorem carry_works (hloaded : loaded arguments host = .ok (config, request))
    (hinfo : request.field ["operation"] ≠ .text "info") :
    Leaves (do
      let plan ← (Compiler.ofConfig config).compile request (Compiler.ask config)
      if arguments.dumpPlan then print (Yaml.print plan.toValue)
      else if arguments.dryRun then print (Text.shellLine (plan.command config.engine false))
      else print (← Render.render plan config)
      return 0) host (Works arguments host) := by
  have hprobed := Compiler.onlyProbed_compile (Compiler.ofConfig config) request config host
  have hearly := Compiler.failsEarly_compile (Compiler.ofConfig config) request host
    (Compiler.failsEarly_ask config)
  rw [leaves_bind, Leaves]
  rw [result] at hearly
  rcases hrun : ((Compiler.ofConfig config).compile request (Compiler.ask config)).runOn host with
    ⟨failure | plan, compiled⟩
  · rw [hrun] at hprobed hearly
    exact .stopped (hearly failure rfl) hprobed
  · rw [hrun] at hprobed
    simp only
    split
    · next hdump => exact .shown (hprobed.said _ compiled.complaints) (.inl hdump)
    · next hdump =>
        split
        · next hdry => exact .shown (hprobed.said _ compiled.complaints) (.inr (.inl hdry))
        · next hdry =>
            -- What is rendered was not to be shown: neither flag is set, and the request that is
            -- loaded is this one.
            have hcarried : ¬ ShowsOnly arguments host := by
              rintro (h | h | ⟨config', request', hloaded', h⟩)
              · exact hdump h
              · exact hdry h
              · cases hloaded.symm.trans hloaded'
                exact hinfo h
            have hcompiles : Compiles arguments host config plan compiled :=
              ⟨⟨request, hloaded, hrun⟩, hprobed⟩
            rw [leaves_bind]
            refine (Render.render_accounts plan config compiled).mono fun result rendered h => ?_
            cases result with
            | ok path => exact .rendered _ hcarried hcompiles h
            | error failure => exact .rendered rendered.printed hcarried hcompiles h

end

/-- All work on a request ends in one of these ways. -/
theorem work_works (arguments : Arguments) (host : Host) :
    (work arguments).Leaves host (Works arguments host) := by
  unfold work
  rw [leaves_bind, leaves_get]
  simp only
  rw [leaves_bind, leaves_lift]
  cases hconfig : Config.load host arguments.config with
  | error failure =>
      exact .stopped (Config.failsEarly_load _ _ failure hconfig) (.untouched _ _)
  | ok config =>
      simp only
      rw [leaves_bind, leaves_lift]
      cases hrequest : Request.load host arguments.request arguments.output with
      | error failure =>
          exact .stopped (Request.failsEarly_load _ _ _ failure hrequest) (.untouched _ _)
      | ok request =>
          have hloaded : loaded arguments host =
              .ok ({ config with quiet := config.quiet || arguments.quiet }, request) := by
            rw [loaded, hconfig, hrequest]
            rfl
          simp only
          split
          · next hinfo => exact describe_works hloaded hinfo
          · next hother => exact carry_works hloaded hother

/-- The command line asks for help, or of a request asks to show something and to carry nothing
out. -/
def OnlyShows (words : List String) (host : Host) : Prop :=
  Arguments.read words = .ok none ∨
    ∃ arguments, Arguments.read words = .ok (some arguments) ∧ ShowsOnly arguments host

/-- The command line comes to a plan, and the engine is called once, with the command of this
plan. -/
structure CallsEngine (words : List String) (host : Host) (config : Config) (plan : Plan Number)
    (compiled after : Host) : Prop where
  compiles : ∃ arguments, Arguments.read words = .ok (some arguments) ∧
    Compiles arguments host config plan compiled
  commands : after.commands =
    host.commands ++ [plan.command config.engine (Render.shows config compiled)]

/-- The engine did what it was called for: it started, ended in time and without complaint, and
left the output behind. -/
structure Succeeds (config : Config) (plan : Plan Number) (compiled : Host) : Prop where
  started : compiled.engine.refusal = none
  inTime : (compiled.engine.hangs && config.timeout.isSome) = false
  exit : compiled.engine.code = 0
  written : (Render.finished plan compiled).isFile compiled.place plan.target = true

/-- The effects that an exit status stands for. -/
structure Reports (words : List String) (host : Host) (status : Except Failure Nat) (after : Host) :
    Prop where
  /-- After a refusal, and where nothing is to be carried out, at most the prober was run: the
  engine was not called, and the files are as they were or as the prober left them. -/
  refused : status = .ok refusedStatus ∨ OnlyShows words host →
    OnlyProbed host after ∧ after.commands = host.commands ∧
      (after.files = host.files ∨ after.files = host.afterRun .prober)
  /-- After a failure of the engine it was called once, and no temporary input is left. -/
  failed : status = .ok engineStatus → ∃ config plan compiled,
    CallsEngine words host config plan compiled after ∧
      ∀ path ∈ plan.temporaryPaths, after.isFile path = false
  /-- After a success that was to carry something out, the engine was called once, with
  success. -/
  done : status = .ok 0 → ¬ OnlyShows words host → ∃ config plan compiled,
    CallsEngine words host config plan compiled after ∧ Succeeds config plan compiled

section

variable {words : List String} {host after : Host}

/-- What fails before the engine is called fails as a refusal, or escapes. -/
theorem settle_early {failure : Failure} (hearly : failure.isEngine = false)
    (hprobed : OnlyProbed host after) :
    Leaves (settle failure) after fun status final =>
      OnlyProbed host final ∧ status ≠ .ok engineStatus ∧ status ≠ .ok 0 := by
  unfold settle
  cases failure.isCompilation with
  | true => exact ⟨hprobed.said after.printed _, nofun, nofun⟩
  | false =>
      rw [hearly]
      exact ⟨hprobed, nofun, nofun⟩

/-- A run that called no engine can only have been refused, or have shown something. -/
theorem reports_of_onlyProbed {status : Except Failure Nat} (hprobed : OnlyProbed host after)
    (hengine : status ≠ .ok engineStatus) (hdone : status = .ok 0 → OnlyShows words host) :
    Reports words host status after where
  refused _ := ⟨hprobed, hprobed.commands, hprobed.files⟩
  failed h := absurd h hengine
  done h hcarried := absurd (hdone h) hcarried

end

section

variable {words : List String} {host : Host} {arguments : Arguments} {config : Config}
  {plan : Plan Number} {compiled rendered : Host} {result : Except Failure String}

theorem not_onlyShows (harguments : Arguments.read words = .ok (some arguments))
    (hcarried : ¬ ShowsOnly arguments host) : ¬ OnlyShows words host := by
  rintro (hhelp | ⟨other, hother, hshows⟩)
  · cases harguments.symm.trans hhelp
  · cases harguments.symm.trans hother
    exact hcarried hshows

/-- Once the directory of the output is ready, the engine is called with a command that the system
takes. -/
theorem callsEngine_of_ready (harguments : Arguments.read words = .ok (some arguments))
    (hcompiles : Compiles arguments host config plan compiled)
    (haccounts : Render.Accounts plan config compiled result rendered)
    (hready : Render.ready plan compiled = .ok ())
    (hsendable : isSendable (Render.commandOf plan config compiled) = true)
    (printed complaints : String) :
    CallsEngine words host config plan compiled { rendered with printed, complaints } := by
  refine ⟨⟨arguments, harguments, hcompiles⟩, ?_⟩
  have hcommands := haccounts.commands
  rw [Render.issued, hready, hcompiles.probed.commands] at hcommands
  simp only [hsendable, if_true] at hcommands
  exact hcommands

/-- A render that goes well has called the engine, which did what it was called for. -/
theorem reports_of_written {path : String}
    (harguments : Arguments.read words = .ok (some arguments))
    (hcarried : ¬ ShowsOnly arguments host)
    (hcompiles : Compiles arguments host config plan compiled)
    (haccounts : Render.Accounts plan config compiled (.ok path) rendered) (printed : String) :
    Reports words host (.ok 0) { rendered with printed } := by
  obtain ⟨-, -, hproduced⟩ := Render.of_outcome haccounts.result.symm
  obtain ⟨hready, hsendable, hstarted, hwritten⟩ := Render.of_produced hproduced
  obtain ⟨hexit, hinTime⟩ := Render.exit_of_produced hproduced
  have hcalls := callsEngine_of_ready harguments hcompiles haccounts hready hsendable printed
    rendered.complaints
  refine ⟨fun h => ?_, nofun, fun _ _ => ⟨config, plan, compiled, hcalls, ?_⟩⟩
  · exact absurd h (not_or.2 ⟨nofun, not_onlyShows harguments hcarried⟩)
  · exact ⟨hstarted, hinTime, hexit, hwritten⟩

/-- A render that fails like the engine has called it, and no other failure has a status. -/
theorem reports_of_failed {failure : Failure}
    (harguments : Arguments.read words = .ok (some arguments))
    (hcarried : ¬ ShowsOnly arguments host)
    (hcompiles : Compiles arguments host config plan compiled)
    (haccounts : Render.Accounts plan config compiled (.error failure) rendered)
    (printed : String) :
    (settle failure).Leaves { rendered with printed } (Reports words host) := by
  have hresult := haccounts.result
  have hrefused {status : Except Failure Nat} (hstatus : status ≠ .ok refusedStatus) :
      ¬ (status = .ok refusedStatus ∨ OnlyShows words host) :=
    not_or.2 ⟨hstatus, not_onlyShows harguments hcarried⟩
  -- A render never fails like a request.
  have hcompilation := Render.isCompilation_of_outcome hresult.symm
  simp only [settle, hcompilation, Bool.false_eq_true, if_false]
  cases hengine : failure.isEngine with
  | false => exact ⟨fun h => absurd h (hrefused nofun), nofun, nofun⟩
  | true =>
      obtain ⟨hready, hsendable, hgone⟩ := Render.called_of_isEngine hresult.symm hengine
      have hcalls := callsEngine_of_ready harguments hcompiles haccounts hready hsendable printed
      refine ⟨fun h => absurd h (hrefused nofun), fun _ => ⟨config, plan, compiled, ?_, ?_⟩, nofun⟩
      · exact hcalls _
      · intro path hpath
        have hplace : rendered.place = compiled.place := Render.place_congr haccounts.directory
        change rendered.files.isFile rendered.place path = false
        rw [hplace, haccounts.files, Render.swept, FileTree.clearUpTo_of_unheld hgone]
        exact FileTree.isFile_clear_of_mem hpath

end

/-- Lines are printed one after the other. -/
theorem lines_leaves (lines : List String) (host : Host) :
    Leaves (lines.forM print) host fun outcome after =>
      outcome = .ok () ∧ ∃ printed, after = { host with printed } := by
  induction lines generalizing host with
  | nil => exact ⟨rfl, host.printed, rfl⟩
  | cons line rest ih =>
      change Leaves (print line >>= fun _ => rest.forM print) host _
      rw [leaves_bind]
      exact ih { host with printed := host.printed ++ line ++ "\n" }

/-- **The exit status tells the truth about effects.**  For every command line and every
machine: a refusal leaves the machine as it was but for one run of the prober, and so does a run
that only shows something; a failure of the engine comes after one call of the engine and
without temporary inputs; and a run that goes well and was to carry something out has called the
engine once, which ended well and wrote the output. -/
theorem run_reports (words : List String) (host : Host) :
    Reports words host ((run words).runOn host).1 ((run words).runOn host).2 := by
  change (run words).Leaves host (Reports words host)
  unfold run
  cases hwords : Arguments.read words with
  | error usage =>
      exact reports_of_onlyProbed (.untouched host.printed _) nofun nofun
  | ok read =>
      cases read with
      | none =>
          refine (lines_leaves Help.lines host).bind ?_ (by rintro failure after ⟨h, -⟩; cases h)
          rintro - after ⟨-, printed, rfl⟩
          exact reports_of_onlyProbed (.untouched printed _) nofun fun _ => .inl hwords
      | some arguments =>
          simp only
          rw [leaves_tryCatch]
          refine (work_works arguments host).mono fun outcome after hworks => ?_
          cases hworks with
          | stopped hearly hprobed =>
              refine (settle_early hearly hprobed).mono fun status final hsettled => ?_
              obtain ⟨hfinal, hengine, hdone⟩ := hsettled
              exact reports_of_onlyProbed hfinal hengine fun h => absurd h hdone
          | shown hprobed hshows =>
              exact reports_of_onlyProbed hprobed nofun fun _ => .inr ⟨arguments, hwords, hshows⟩
          | @rendered config plan compiled rendered result printed hcarried hcompiles haccounts =>
              cases result with
              | ok path =>
                  exact reports_of_written hwords hcarried hcompiles haccounts printed
              | error failure =>
                  exact reports_of_failed hwords hcarried hcompiles haccounts printed

/-- A machine with a clip, the request to mute it, and an engine that writes the output. -/
def muteHost : Host :=
  { files := ⟨[(["work".toList], .directory),
      (["work".toList, "mute.yaml".toList],
        .file "operation: mute\nfilename: /a.mp4\noutput: b.mp4\n" 49),
      (["a.mp4".toList], .file "" 0)]⟩
    engine := { writes := ["b.mp4"] } }

/-- The muted clip is written by one call of the engine. -/
theorem run_reports_mute :
    ∃ config plan compiled, CallsEngine ["-y", "mute.yaml"] muteHost config plan compiled
        ((run ["-y", "mute.yaml"]).runOn muteHost).2 ∧
      Succeeds config plan compiled := by
  have hstatus : ((run ["-y", "mute.yaml"]).runOn muteHost).1.toOption = some 0 := by
    decide +kernel
  have hread : Arguments.read ["-y", "mute.yaml"] =
      .ok (some ⟨"mute.yaml", none, none, false, false, false⟩) := by decide +kernel
  have hword : (loaded ⟨"mute.yaml", none, none, false, false, false⟩ muteHost).toOption.map
      (fun read => (read.2.field ["operation"]).text?) = some (some "mute") := by decide +kernel
  have hcarried : ¬ OnlyShows ["-y", "mute.yaml"] muteHost := by
    rintro (hhelp | ⟨arguments, harguments, hshows⟩)
    · cases hread.symm.trans hhelp
    · cases hread.symm.trans harguments
      rcases hshows with hdump | hdry | ⟨config, request, hloaded, hinfo⟩
      · cases hdump
      · cases hdry
      · rw [hloaded] at hword
        simp [Except.toOption, hinfo, Value.text?] at hword
  refine (run_reports ["-y", "mute.yaml"] muteHost).done ?_ hcarried
  cases hrun : ((run ["-y", "mute.yaml"]).runOn muteHost).1 with
  | error failure =>
      rw [hrun] at hstatus
      cases hstatus
  | ok status =>
      rw [hrun] at hstatus
      cases hstatus
      rfl

end Montage.CommandLine
