import Montage.Proofs.Decimal.Whole
import Montage.Proofs.Ends
import Montage.Proofs.Files.Change
import Montage.Proofs.Host.Action
import Montage.Render

/-!
# What a render comes to

A render prepares the directory of the output, runs the engine, looks at its exit and at the
output, clears the temporary inputs away and reads the clock.  What it comes to is computed
here from the host alone (`outcome`), without any of the steps: the two ways to run the engine
differ in what they note and show, and in how they follow it to its end (`ended`).
`render_accounts` says that the steps come to just that, which files they leave, and with which
command they call the engine.
-/

namespace Montage

/-- The command of an event that calls the engine. -/
def Event.engineCommand? : Event → Option (List String)
  | .run .engine command _ => some command
  | .stream .engine command => some command
  | _ => none

/-- The commands with which the engine was called. -/
def Host.commands (host : Host) : List (List String) := host.events.filterMap (·.engineCommand?)

namespace Progress

/-- The whole number that a line of the progress report tells, in microseconds. -/
def told? (line : String) : Option Int :=
  let cs := Text.trim line.toList
  let key := String.ofList (cs.takeWhile (· != '='))
  if key == "out_time_us" || key == "out_time_ms" then
    (Decimal.readInteger 10 ((cs.dropWhile (· != '=')).drop 1)).toOption
  else none

/-- A line is read unless it tells a number that is too large for a double. -/
theorem seconds_eq (line : String) :
    seconds line = match told? line with
      | none => .ok none
      | some n =>
        if (Float.ofInt n).isFinite then .ok (some (.float (Float.ofInt n / 1000000.0)))
        else .error .tooLarge := by
  unfold seconds told?
  extract_lets cs key
  split
  · cases Decimal.readInteger 10 ((cs.dropWhile (· != '=')).drop 1) with
    | error => rfl
    | ok n =>
        cases hfinite : (Float.ofInt n).isFinite <;>
          simp [Number.toFloat?, Except.toOption, hfinite]
  · rfl

/-- Every number that the lines tell is small enough for a double. -/
def Readable (lines : List String) : Prop :=
  ∀ line ∈ lines, ∀ n, told? line = some n → (Float.ofInt n).isFinite = true

/-- A report is read to its end, or up to a number that is too large. -/
theorem positions_fault (lines : List String) :
    (positions lines).2 = none ∧ Readable lines ∨
      (positions lines).2 = some .tooLarge ∧ ¬ Readable lines := by
  induction lines with
  | nil => exact .inl ⟨rfl, nofun⟩
  | cons line rest ih =>
      -- The line is readable if it tells nothing or a number that is small enough.
      have hcons : Readable (line :: rest) ↔
          (∀ n, told? line = some n → (Float.ofInt n).isFinite = true) ∧ Readable rest := by
        simp [Readable]
      rw [positions, seconds_eq, hcons]
      cases htold : told? line with
      | none => simpa using ih
      | some n =>
          cases hfinite : (Float.ofInt n).isFinite with
          | true => simpa [hfinite] using ih
          | false => simp [hfinite]

end Progress

namespace Render

open Montage.Action

/-- The first of the readings of the clock, and the readings that are left. -/
def takeTime : List Number → Number × List Number
  | [] => (.int 0, [])
  | [time] => (time, [time])
  | time :: rest => (time, rest)

/-- The whole seconds between the first two readings of the clock. -/
def clocked (times : List Number) : Except Fault Int :=
  let first := takeTime times
  elapsed first.1 (takeTime first.2).1

/-- Whether the run is shown by a bar. -/
def shows (config : Config) (host : Host) : Bool := !(config.quiet || host.isQuiet)

/-- The files once the directory of the output is made. -/
def prepared (plan : Plan Number) (host : Host) : FileTree :=
  let directory := Path.parent plan.target
  if directory.isEmpty || host.isDirectory directory then host.files
  else (host.files.makePath host.place directory).1

/-- Whether the directory of the output is there or could be made. -/
def ready (plan : Plan Number) (host : Host) : Except Failure Unit :=
  let directory := Path.parent plan.target
  if directory.isEmpty || host.isDirectory directory then .ok ()
  else (host.files.makePath host.place directory).2

/-- The files once the engine has had its effects after that. -/
def finished (plan : Plan Number) (host : Host) : FileTree :=
  { host with files := prepared plan host }.afterStart host.engine

/-- What the driver makes of a run that was waited for. -/
def exitOf (limit : Option Number) : Action.Outcome → Except Failure (Int × String)
  | .refused reason => .error (notStarted reason)
  | .timedOut => .error (timedOut limit)
  | .ended code _ stderr => .ok (code, stderr)

/-- The exit of an engine that was started, and its complaints: either its report is read, or
its end is waited for. -/
def ended (shown : Bool) (limit : Option Number) (engine : Behaviour) :
    Except Failure (Int × String) :=
  if shown then (watch engine limit).2 else Action.awaitEnd engine limit >>= exitOf limit

/-- The exit of the engine and its complaints. -/
def ran (shown : Bool) (command : List String) (limit : Option Number) (engine : Behaviour) :
    Except Failure (Int × String) :=
  if isSendable command then
    match engine.refusal with
    | some reason => .error (notStarted reason)
    | none => ended shown limit engine
  else .error (.fault .badValue)

/-- What an exit of the engine means, given the files that it leaves. -/
def judged (plan : Plan Number) (host : Host) (exit : Int × String) : Except Failure Unit :=
  if exit.1 != 0 then .error (.engine (.exited exit.1 (tail exit.2)) (some exit.1) exit.2)
  else if !(finished plan host).isFile host.place plan.target then
    .error (.engine (.noOutput plan.target) none "")
  else .ok ()

/-- What making the output comes to. -/
def produced (plan : Plan Number) (config : Config) (shown : Bool) (command : List String)
    (host : Host) : Except Failure Unit := do
  ready plan host
  judged plan host (← ran shown command config.timeout host.engine)

/-- Whether the engine starts. -/
def starts (command : List String) (engine : Behaviour) : Bool :=
  isSendable command && engine.refusal.isNone

/-- The files before temporary inputs are cleared away. -/
def left (plan : Plan Number) (command : List String) (host : Host) : FileTree :=
  match ready plan host with
  | .ok () => if starts command host.engine then finished plan host else prepared plan host
  | .error _ => prepared plan host

/-- The files once temporary inputs are cleared away, and whether all of them were. -/
def swept (plan : Plan Number) (command : List String) (host : Host) : FileTree × Bool :=
  (left plan command host).clearUpTo host.place host.held plan.temporaryPaths

/-- What comes of making the output and of clearing temporary inputs away: a removal that is
refused makes nobody ask for the output. -/
def cleaned (plan : Plan Number) (config : Config) (shown : Bool) (command : List String)
    (host : Host) : Except Failure Unit :=
  if (swept plan command host).2 then produced plan config shown command host
  else .error .system

/-- The command with which a render calls the engine. -/
def commandOf (plan : Plan Number) (config : Config) (host : Host) : List String :=
  plan.command config.engine (shows config host)

/-- What a render comes to. -/
def outcome (plan : Plan Number) (config : Config) (host : Host) : Except Failure String := do
  cleaned plan config (shows config host) (commandOf plan config host) host
  match clocked host.times with
  | .error fault => throw (.fault fault)
  | .ok _ => return plan.target

/-- The commands of a render: one if the directory of the output is ready and the system takes
the command, and none otherwise. -/
def issued (plan : Plan Number) (host : Host) (command : List String) : List (List String) :=
  match ready plan host with
  | .ok () => if isSendable command then [command] else []
  | .error _ => []

theorem readTime_leaves (host : Host) :
    Leaves readTime host fun result after =>
      result = .ok (takeTime host.times).1 ∧
        after = { host with times := (takeTime host.times).2 } := by
  unfold readTime
  rw [leaves_bind, leaves_get]
  simp only
  generalize htimes : host.times = times
  have hkept : host = { host with times } := by rw [← htimes]
  rcases times with _ | ⟨time, _ | ⟨next, rest⟩⟩
  · exact ⟨rfl, hkept⟩
  · exact ⟨rfl, hkept⟩
  · exact ⟨rfl, rfl⟩

/-- A line of the log changes nothing but what is printed. -/
theorem log_leaves (quiet : Bool) (line : String) (host : Host) :
    Leaves (log quiet line) host fun result after =>
      result = .ok () ∧ ∃ printed, after = { host with printed } := by
  unfold log
  rw [leaves_bind, leaves_get]
  simp only
  split
  · exact ⟨rfl, host.printed, rfl⟩
  · exact ⟨rfl, _, rfl⟩

theorem makeOutputDir_leaves (plan : Plan Number) (host : Host) :
    Leaves (makeOutputDir plan.target) host fun result after =>
      result = ready plan host ∧ after = { host with files := prepared plan host } := by
  unfold makeOutputDir ready prepared
  rw [leaves_bind, leaves_get]
  simp only
  split
  · exact ⟨rfl, rfl⟩
  · rcases host.files.makePath host.place (Path.parent plan.target) with ⟨files, result⟩
    rw [leaves_bind, leaves_setFiles]
    cases result <;> exact ⟨rfl, rfl⟩

/-- Running the engine: it has its effects unless it is refused, and it is called once, unless
the system does not take the command. -/
structure Runs (shown : Bool) (limit : Option Number) (command : List String) (host : Host)
    (result : Except Failure (Int × String)) (after : Host) : Prop where
  result : result = ran shown command limit host.engine
  directory : after.directory = host.directory
  held : after.held = host.held
  times : after.times = host.times
  files : after.files =
    if starts command host.engine then host.afterStart host.engine else host.files
  commands : after.commands = host.commands ++ if isSendable command then [command] else []

theorem commands_append (host : Host) (events : List Event) :
    Host.commands { host with events := host.events ++ events } =
      host.commands ++ events.filterMap (·.engineCommand?) :=
  List.filterMap_append

theorem commands_files (host : Host) (files : FileTree) :
    Host.commands { host with files } = host.commands := rfl

/-- A command that the system does not take is not run. -/
theorem runs_of_not_sendable {shown : Bool} {limit : Option Number} {command : List String}
    {host : Host} (h : isSendable command = false) :
    Runs shown limit command host (.error (.fault .badValue)) host where
  result := by rw [ran, h, if_neg Bool.false_ne_true]
  directory := rfl
  held := rfl
  times := rfl
  files := by rw [starts, h, Bool.false_and, if_neg Bool.false_ne_true]
  commands := by rw [h, if_neg Bool.false_ne_true, List.append_nil]

/-- An engine that is refused is called, and does nothing. -/
theorem runs_of_refusal {shown : Bool} {limit : Option Number} {command : List String}
    {host : Host} {reason : Refusal} {event : Event} (h : isSendable command = true)
    (hrefusal : host.engine.refusal = some reason) (hevent : event.engineCommand? = some command) :
    Runs shown limit command host (.error (notStarted reason))
      { host with events := host.events ++ [event] } where
  result := by rw [ran, h, if_pos rfl, hrefusal]
  directory := rfl
  held := rfl
  times := rfl
  files := by rw [starts, hrefusal, Option.isNone_some, Bool.and_false, if_neg Bool.false_ne_true]
  commands := by
    rw [commands_append, h, if_pos rfl, List.filterMap_cons_some hevent]
    rfl

/-- An engine that is started is called once, whatever else is noted, and has its effects. -/
theorem runs_of_start {shown : Bool} {limit : Option Number} {command : List String} {host : Host}
    {events : List Event} {bars : List Bar} (h : isSendable command = true)
    (hrefusal : host.engine.refusal = none)
    (hevents : events.filterMap (·.engineCommand?) = [command]) :
    Runs shown limit command host (ended shown limit host.engine)
      { host with
        events := host.events ++ events, files := host.afterStart host.engine, bars } where
  result := by rw [ran, h, if_pos rfl, hrefusal]
  directory := rfl
  held := rfl
  times := rfl
  files := by rw [starts, h, hrefusal, Option.isNone_none, Bool.and_true, if_pos rfl]
  commands := by
    rw [h, if_pos rfl, ← hevents]
    exact commands_append host events

/-- The run of the engine as a tool that is waited for. -/
theorem runs_waited (command : List String) (limit : Option Number) (host : Host) :
    Runs false limit command host (outcomeOf command host.engine limit >>= exitOf limit)
      (hostAfter .engine command limit host) := by
  have hbehaviour : host.behaviour .engine = host.engine := rfl
  rw [outcomeOf, hostAfter, Host.afterRun, hbehaviour]
  cases hsendable : isSendable command with
  | false => exact runs_of_not_sendable hsendable
  | true =>
      simp only [if_true]
      cases hrefusal : host.engine.refusal with
      | some reason => exact runs_of_refusal hsendable hrefusal rfl
      | none => exact runs_of_start hsendable hrefusal rfl

theorem runQuiet_leaves (command : List String) (limit : Option Number) (host : Host) :
    Leaves (runQuiet command limit) host (Runs false limit command host) := by
  have hrun : runQuiet command limit =
      runTool .engine command limit >>= fun outcome => liftM (exitOf limit outcome) := by
    unfold runQuiet
    congr 1
    funext outcome
    cases outcome <;> rfl
  have hbehaviour : host.behaviour .engine = host.engine := rfl
  have hwaited := runs_waited command limit host
  rw [hrun, leaves_bind, leaves_runTool, hbehaviour]
  cases houtcome : outcomeOf command host.engine limit with
  | ok outcome =>
      rw [houtcome] at hwaited
      exact leaves_lift.2 hwaited
  | error failure =>
      rw [houtcome] at hwaited
      exact hwaited

theorem runShown_leaves (command : List String) (total limit : Option Number) (host : Host) :
    Leaves (runShown command total limit) host (Runs true limit command host) := by
  unfold runShown
  cases hsendable : isSendable command with
  | false => exact runs_of_not_sendable hsendable
  | true =>
      simp only [Bool.not_true, Bool.false_eq_true, if_false]
      rw [leaves_bind, leaves_record]
      simp only
      rw [leaves_bind, leaves_get]
      simp only
      cases hrefusal : host.engine.refusal with
      | some reason => exact runs_of_refusal hsendable hrefusal rfl
      | none =>
          simp only
          rw [leaves_bind, leaves_setFiles]
          simp only
          -- The timer is noted too, and is no call of the engine.
          cases limit with
          | none => exact runs_of_start hsendable hrefusal rfl
          | some seconds =>
              have hevents : host.events ++ [.stream .engine command] ++ [.timer seconds] =
                  host.events ++ [.stream .engine command, .timer seconds] := by
                rw [List.append_assoc]
                rfl
              have hruns (bars : List Bar) :
                  Runs true (some seconds) command host (ended true (some seconds) host.engine)
                    { host with
                      events := host.events ++ [.stream .engine command, .timer seconds]
                      files := host.afterStart host.engine, bars } :=
                runs_of_start hsendable hrefusal rfl
              rw [← hevents] at hruns
              exact hruns _

/-- Making the output: what it comes to, which files it leaves, and the one call. -/
structure Produces (plan : Plan Number) (config : Config) (shown : Bool) (command : List String)
    (host : Host) (result : Except Failure Unit) (after : Host) : Prop where
  result : result = produced plan config shown command host
  directory : after.directory = host.directory
  held : after.held = host.held
  times : after.times = host.times
  files : after.files = left plan command host
  commands : after.commands = host.commands ++ issued plan host command

/-- Where look-ups begin depends on the working directory only. -/
theorem place_congr {host after : Host} (h : after.directory = host.directory) :
    after.place = host.place := by
  rw [Host.place, h, Host.place]

/-- Only an engine that starts has an exit. -/
theorem starts_of_ran {shown : Bool} {command : List String} {limit : Option Number}
    {engine : Behaviour} {exit : Int × String} (h : ran shown command limit engine = .ok exit) :
    isSendable command = true ∧ engine.refusal = none := by
  unfold ran at h
  split at h
  · next hsendable =>
      refine ⟨hsendable, ?_⟩
      split at h
      · cases h
      · next hrefusal => exact hrefusal
  · cases h

/-- The files before the cleaning, once the directory of the output is ready. -/
theorem left_of_ready {plan : Plan Number} {command : List String} {host : Host}
    (h : ready plan host = .ok ()) :
    left plan command host =
      if starts command host.engine then finished plan host else prepared plan host := by
  rw [left, h]

section

variable {plan : Plan Number} {config : Config} {shown : Bool} {command : List String}
  {host ended : Host}

/-- Once the directory is ready, the run of the engine accounts for all that is left. -/
theorem produces_of_runs {exit : Except Failure (Int × String)} {result : Except Failure Unit}
    (hready : ready plan host = .ok ())
    (hrun : Runs shown config.timeout command { host with files := prepared plan host } exit ended)
    (hresult : result = exit >>= judged plan host) :
    Produces plan config shown command host result ended where
  result := by
    rw [hresult, hrun.result, produced, hready, Ends.ok_bind rfl]
  directory := hrun.directory
  held := hrun.held
  times := hrun.times
  files := by
    rw [left_of_ready hready, hrun.files]
    rfl
  commands := by
    rw [issued, hready, hrun.commands, commands_files]

/-- An engine that came to an exit has done all it does to the files. -/
theorem files_of_exit {code : Int × String}
    (hrun : Runs shown config.timeout command { host with files := prepared plan host }
      (.ok code) ended) : ended.files = finished plan host := by
  obtain ⟨hsendable, hrefusal⟩ := starts_of_ran hrun.result.symm
  rw [hrun.files, starts, hsendable, hrefusal]
  rfl

end

theorem produce_leaves (plan : Plan Number) (config : Config) (shown : Bool)
    (command : List String) (host : Host) :
    Leaves (produce plan config shown command) host
      (Produces plan config shown command host) := by
  unfold produce
  refine (makeOutputDir_leaves plan host).bind ?_ ?_
  · rintro ⟨⟩ begun ⟨hready, rfl⟩
    have haccounts {exit : Except Failure (Int × String)} {result : Except Failure Unit}
        {ended : Host} (hrun : Runs shown config.timeout command
          { host with files := prepared plan host } exit ended)
        (hresult : exit >>= judged plan host = result) :
        Produces plan config shown command host result ended :=
      produces_of_runs hready.symm hrun hresult.symm
    extract_lets check judge
    -- A run that ends: its exit and the output are looked at, and nothing changes.
    have hjudge (exit : Int × String) (ended : Host)
        (hrun : Runs shown config.timeout command { host with files := prepared plan host }
          (.ok exit) ended) :
        (judge exit).Leaves ended (Produces plan config shown command host) := by
      have hplace : ended.place = host.place := place_congr hrun.directory
      have hended := files_of_exit hrun
      simp only [judge, check]
      split
      · next hexit =>
          rw [leaves_bind, leaves_throw]
          exact haccounts hrun (if_pos hexit)
      · next hexit =>
          rw [leaves_bind, leaves_get]
          simp only
          rw [Host.isFile, hplace, hended]
          split
          · next hmissing =>
              rw [leaves_throw]
              exact haccounts hrun ((if_neg hexit).trans (if_pos hmissing))
          · next hwritten =>
              rw [leaves_pure]
              exact haccounts hrun ((if_neg hexit).trans (if_neg hwritten))
    have hfailed (failure : Failure) (ended : Host)
        (hrun : Runs shown config.timeout command { host with files := prepared plan host }
          (.error failure) ended) :
        Produces plan config shown command host (.error failure) ended := haccounts hrun rfl
    cases shown with
    | true => exact (runShown_leaves _ _ _ _).bind hjudge hfailed
    | false => exact (runQuiet_leaves _ _ _).bind hjudge hfailed
  · -- Without its directory the output is not even tried.
    rintro failure begun ⟨hready, rfl⟩
    have hfailed : produced plan config shown command host = .error failure :=
      Ends.error_bind hready.symm
    refine ⟨hfailed.symm, rfl, rfl, rfl, ?_, ?_⟩
    · rw [left, ← hready]
    · rw [issued, ← hready, commands_files, List.append_nil]

/-- Clearing away goes on up to a file that the system does not let go. -/
theorem removeFiles_leaves (paths : List String) (host : Host) :
    Leaves (removeFiles paths) host fun result after =>
      let swept := host.files.clearUpTo host.place host.held paths
      result = (if swept.2 then .ok () else .error .system) ∧
        after = { host with files := swept.1 } := by
  -- Every removal is seen by the look-ups behind it, so the claim is about all hosts.
  induction paths generalizing host with
  | nil => exact ⟨rfl, rfl⟩
  | cons path rest ih =>
      have hfile : host.isFile path = host.files.isFile host.place path := rfl
      have hheld : host.holds path =
          (host.files.locate host.place false path.toList).any host.held.contains := rfl
      unfold removeFiles
      rw [leaves_bind, leaves_get]
      simp only
      rw [FileTree.clearUpTo, hfile, hheld]
      split
      · split
        · exact ⟨rfl, rfl⟩
        · simp only [leaves_bind, leaves_setFiles]
          exact ih { host with files := host.files.unlink host.place path }
      · exact ih host

/-- The output made, and the temporary inputs cleared away whatever came of it. -/
structure Cleared (plan : Plan Number) (config : Config) (shown : Bool) (command : List String)
    (host : Host) (result : Except Failure Unit) (after : Host) : Prop where
  result : result = cleaned plan config shown command host
  directory : after.directory = host.directory
  held : after.held = host.held
  times : after.times = host.times
  files : after.files = (swept plan command host).1
  commands : after.commands = host.commands ++ issued plan host command

theorem cleared_leaves (plan : Plan Number) (config : Config) (shown : Bool)
    (command : List String) (host : Host) :
    Leaves (ensuring (produce plan config shown command) (removeFiles plan.temporaryPaths)) host
      (Cleared plan config shown command host) := by
  refine .ensuring ((produce_leaves plan config shown command host).mono ?_)
  intro result produced hproduced
  have hswept : produced.files.clearUpTo produced.place produced.held plan.temporaryPaths =
      swept plan command host := by
    rw [hproduced.files, place_congr hproduced.directory, hproduced.held, swept]
  refine (removeFiles_leaves plan.temporaryPaths produced).mono ?_
  rintro removed after ⟨hremoved, hafter⟩
  rw [hswept] at hremoved hafter
  have hcleared {result : Except Failure Unit}
      (hresult : result = cleaned plan config shown command host) :
      Cleared plan config shown command host result after := by
    refine ⟨hresult, ?_, ?_, ?_, ?_, ?_⟩
    · rw [hafter, hproduced.directory]
    · rw [hafter, hproduced.held]
    · rw [hafter, hproduced.times]
    · rw [hafter]
    · rw [hafter, commands_files, hproduced.commands]
  cases hall : (swept plan command host).2 with
  | true =>
      rw [hall, if_pos rfl] at hremoved
      refine ⟨fun _ => hcleared ?_, fun failure hfailure => ?_⟩
      · rw [hproduced.result, cleaned, hall, if_pos rfl]
      · cases hremoved.symm.trans hfailure
  | false =>
      rw [hall, if_neg Bool.false_ne_true] at hremoved
      refine ⟨fun hok => ?_, fun failure hfailure => hcleared ?_⟩
      · cases hremoved.symm.trans hok
      · cases hremoved.symm.trans hfailure
        rw [cleaned, hall, if_neg Bool.false_ne_true]

/-- A render: what it comes to, which files it leaves, and with which command it calls the
engine. -/
structure Accounts (plan : Plan Number) (config : Config) (host : Host)
    (result : Except Failure String) (after : Host) : Prop where
  result : result = outcome plan config host
  directory : after.directory = host.directory
  held : after.held = host.held
  files : after.files = (swept plan (commandOf plan config host) host).1
  commands : after.commands = host.commands ++ issued plan host (commandOf plan config host)

/-- The environment does not matter to the output, nor whether the clock was read or a line was
printed. -/
theorem cleaned_begun (plan : Plan Number) (config : Config) (shown : Bool)
    (command : List String) (host : Host) (env : List (String × String)) (times : List Number)
    (printed : String) :
    cleaned plan config shown command { host with env, times, printed } =
        cleaned plan config shown command host ∧
      swept plan command { host with env, times, printed } = swept plan command host ∧
      issued plan { host with env, times, printed } command = issued plan host command := by
  have hready : ready plan { host with env, times, printed } = ready plan host := rfl
  have hprepared : prepared plan { host with env, times, printed } = prepared plan host := rfl
  have hfinished : finished plan { host with env, times, printed } = finished plan host := rfl
  have hjudged : judged plan { host with env, times, printed } = judged plan host := rfl
  have hproduced : produced plan config shown command { host with env, times, printed } =
      produced plan config shown command host := by
    rw [produced, produced, hready, hjudged]
  have hswept : swept plan command { host with env, times, printed } = swept plan command host := by
    rw [swept, swept, left, left, hready, hprepared, hfinished]
    rfl
  refine ⟨?_, hswept, ?_⟩
  · rw [cleaned, cleaned, hswept, hproduced]
  · rw [issued, issued, hready]

/-- **The steps of a render come to its outcome.** -/
theorem render_accounts (plan : Plan Number) (config : Config) (host : Host) :
    Leaves (render plan config) host (Accounts plan config host) := by
  unfold render
  refine (readTime_leaves host).bind ?_ (by rintro failure after ⟨h, -⟩; cases h)
  rintro start timed ⟨hstart, rfl⟩
  rw [leaves_bind, leaves_get]
  simp only
  refine (log_leaves _ _ _).bind ?_ (by rintro failure after ⟨h, -⟩; cases h)
  rintro - begun ⟨-, printed, rfl⟩
  obtain ⟨hcleaned, hswept, hissued⟩ := cleaned_begun plan config (shows config host)
    (commandOf plan config host) host host.env (takeTime host.times).2 printed
  -- What is left once the temporary inputs are cleared away is left in the end.
  have haccounts {result : Except Failure Unit} {cleared after : Host}
      {final : Except Failure String} (hcleared : Cleared plan config (shows config host)
        (commandOf plan config host)
        { host with times := (takeTime host.times).2, printed } result cleared)
      (hafter : ∃ times printed, after = { cleared with times, printed })
      (hfinal : final = outcome plan config host) : Accounts plan config host final after := by
    obtain ⟨times, printed, rfl⟩ := hafter
    have hfiles := hcleared.files
    have hcommands := hcleared.commands
    rw [hswept] at hfiles
    rw [hissued] at hcommands
    exact ⟨hfinal, hcleared.directory, hcleared.held, hfiles, hcommands⟩
  refine (cleared_leaves plan config (shows config host) _ _).bind ?_ ?_
  · rintro ⟨⟩ cleared hcleared
    refine (readTime_leaves cleared).bind ?_ (by rintro failure after ⟨h, -⟩; cases h)
    rintro stop stopped ⟨hstop, rfl⟩
    have hclock : outcome plan config host = match elapsed start stop with
        | .error fault => .error (.fault fault)
        | .ok _ => .ok plan.target := by
      have hclocked : clocked host.times = elapsed start stop := by
        cases hstart
        cases hstop
        rw [clocked, hcleared.times]
      rw [← hclocked]
      exact Ends.ok_bind (hcleaned.symm.trans hcleared.result.symm)
    cases helapsed : elapsed start stop with
    | error fault =>
        rw [helapsed] at hclock
        exact haccounts hcleared ⟨_, cleared.printed, rfl⟩ hclock.symm
    | ok seconds =>
        rw [helapsed] at hclock
        refine (log_leaves _ _ _).bind ?_ (by rintro failure after ⟨h, -⟩; cases h)
        rintro - after ⟨-, printed, rfl⟩
        exact haccounts hcleared ⟨_, printed, rfl⟩ hclock.symm
  · intro failure cleared hcleared
    exact haccounts hcleared ⟨cleared.times, cleared.printed, rfl⟩
      (Ends.error_bind (hcleaned.symm.trans hcleared.result.symm)).symm

/-- A run whose end is waited for ends by itself, with the exit of the engine. -/
theorem of_awaitEnd {limit : Option Number} {engine : Behaviour} {exit : Int × String}
    (h : awaitEnd engine limit >>= exitOf limit = .ok exit) :
    (engine.hangs && limit.isSome) = false ∧ exit.1 = engine.code := by
  obtain ⟨outcome, hwait, hexit⟩ := Ends.of_bind_ok h
  unfold awaitEnd at hwait
  obtain ⟨stopped, hstops, hwait⟩ := Ends.of_bind_ok hwait
  cases stopped with
  | true =>
      cases hwait
      cases hexit
  | false =>
      have hended : outcome = .ended engine.code engine.stdout engine.stderr := by
        simp only [Bool.false_eq_true, if_false] at hwait
        split at hwait
        · cases hwait
        · exact (Except.ok.inj hwait).symm
      rw [hended] at hexit
      cases hexit
      refine ⟨?_, rfl⟩
      unfold stops at hstops
      split at hstops
      · exact Bool.and_false _
      · split at hstops
        · cases hstops
        · have hneither := Except.ok.inj hstops
          rw [Bool.or_eq_false_iff] at hneither
          rw [hneither.2, Bool.false_and]

/-- A run whose report is read ends by itself, with the exit of the engine. -/
theorem of_watch {limit : Option Number} {engine : Behaviour} {exit : Int × String}
    (h : (watch engine limit).2 = .ok exit) :
    (engine.hangs && limit.isSome) = false ∧ exit.1 = engine.code := by
  unfold watch at h
  split at h
  · cases h
  · next hatOnce =>
      simp only at h
      split at h
      · cases h
      · split at h
        · cases h
        · split at h
          · cases h
          · next hinTime =>
              split at h
              · cases h
              · next hnever =>
                  split at h
                  · cases h
                  · cases h
                    refine ⟨?_, rfl⟩
                    cases limit with
                    | none => exact Bool.and_false _
                    | some seconds =>
                        cases hhangs : engine.hangs with
                        | false => rfl
                        | true =>
                            -- No third thing can become of a timer that is set.
                            cases halarm : Limit.alarm seconds with
                            | atOnce => exact absurd (congrArg some halarm) hatOnce
                            | inTime => simp [hhangs, halarm] at hinTime
                            | never => simp [hhangs, halarm] at hnever

/-- A run that ends was in time, and its exit is that of the engine. -/
theorem of_ran {shown : Bool} {command : List String} {limit : Option Number}
    {engine : Behaviour} {exit : Int × String} (h : ran shown command limit engine = .ok exit) :
    (engine.hangs && limit.isSome) = false ∧ exit.1 = engine.code := by
  obtain ⟨hsendable, hrefusal⟩ := starts_of_ran h
  rw [ran, hsendable, if_pos rfl, hrefusal] at h
  cases shown with
  | true => exact of_watch h
  | false => exact of_awaitEnd h

section

variable {plan : Plan Number} {config : Config} {shown : Bool} {command : List String}
  {host : Host}

/-- What is made was made by an engine that ended in time and without complaint. -/
theorem exit_of_produced (h : produced plan config shown command host = .ok ()) :
    host.engine.code = 0 ∧ (host.engine.hangs && config.timeout.isSome) = false := by
  obtain ⟨⟨⟩, -, h⟩ := Ends.of_bind_ok h
  obtain ⟨exit, hran, hjudged⟩ := Ends.of_bind_ok h
  obtain ⟨hstops, hcode⟩ := of_ran hran
  refine ⟨?_, hstops⟩
  unfold judged at hjudged
  split at hjudged
  · cases hjudged
  · next hexit => simpa [hcode] using hexit

/-- What is made was made in a directory that is ready, by an engine that started, and is
there. -/
theorem of_produced (h : produced plan config shown command host = .ok ()) :
    ready plan host = .ok () ∧ isSendable command = true ∧ host.engine.refusal = none ∧
      (finished plan host).isFile host.place plan.target = true := by
  obtain ⟨⟨⟩, hready, h⟩ := Ends.of_bind_ok h
  obtain ⟨exit, hran, hjudged⟩ := Ends.of_bind_ok h
  obtain ⟨hsendable, hrefusal⟩ := starts_of_ran hran
  refine ⟨hready, hsendable, hrefusal, ?_⟩
  unfold judged at hjudged
  split at hjudged
  · cases hjudged
  · split at hjudged
    · cases hjudged
    · next hwritten => simpa using hwritten

/-- Once the engine has started, the files are those that it leaves. -/
theorem left_of_produced (h : produced plan config shown command host = .ok ()) :
    left plan command host = finished plan host := by
  obtain ⟨hready, hsendable, hrefusal, -⟩ := of_produced h
  rw [left_of_ready hready, starts, hsendable, hrefusal]
  exact if_pos rfl

/-- Unless a removal is refused, the output is asked for. -/
theorem of_cleaned {result : Except Failure Unit}
    (h : cleaned plan config shown command host = result) (hresult : result ≠ .error .system) :
    (swept plan command host).2 = true ∧ produced plan config shown command host = result := by
  unfold cleaned at h
  split at h
  · next hall => exact ⟨hall, h⟩
  · exact absurd h.symm hresult

end

/-- A render that goes well returns the path of the output, which was made, and has cleared the
temporary inputs away. -/
theorem of_outcome {plan : Plan Number} {config : Config} {host : Host} {path : String}
    (h : outcome plan config host = .ok path) :
    path = plan.target ∧ (swept plan (commandOf plan config host) host).2 = true ∧
      produced plan config (shows config host) (commandOf plan config host) host = .ok () := by
  obtain ⟨⟨⟩, hcleaned, h⟩ := Ends.of_bind_ok h
  refine ⟨?_, of_cleaned hcleaned nofun⟩
  cases hclocked : clocked host.times with
  | error fault =>
      rw [hclocked] at h
      cases h
  | ok seconds =>
      rw [hclocked] at h
      cases h
      rfl

end Render

end Montage
