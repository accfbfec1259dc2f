import Montage.Host.Action

/-!
# What actions come to

The handlers of the compiler are actions, but almost all they do is look: they read the
request, the files and the clock, and only print a line before they plan.  An action
that `Reads` leaves the host as it is, and a sequence that begins with one comes to
what the same sequence of plain computations comes to (`result_bind`).

Of an action that does change the host one says what it `Leaves`: its outcome together
with the host after it, step by step (`leaves_bind`).  The run of a tool is such an action
(`leaves_runTool`).
-/

namespace Montage

/-- The files after a tool was to be run: it has its effects unless it is refused. -/
def Host.afterRun (host : Host) (tool : Tool) : FileTree :=
  if (host.behaviour tool).refusal.isNone then host.afterStart (host.behaviour tool)
  else host.files

namespace Action

variable {α β : Type}

/-- What an action comes to on a host. -/
def result (action : Action α) (host : Host) : Except Failure α := (action.runOn host).1

/-- An action that leaves every host as it is. -/
def Reads (action : Action α) : Prop := ∀ host, (action.runOn host).2 = host

theorem result_lift (e : Except Failure α) (host : Host) : result (liftM e) host = e := rfl

theorem reads_lift (e : Except Failure α) : Reads (liftM e) := fun _ => rfl

theorem reads_get : Reads get := fun _ => rfl

theorem runOn_get (host : Host) : (get : Action Host).runOn host = (.ok host, host) := rfl

theorem result_get_bind (next : Host → Action β) (host : Host) :
    result (get >>= next) host = result (next host) host := rfl

/-- A sequence runs its second part on the host that the first part leaves. -/
theorem runOn_bind {action : Action α} {next : α → Action β} {host after : Host} {a : α}
    (h : action.runOn host = (.ok a, after)) :
    (action >>= next).runOn host = (next a).runOn after := by
  change (ExceptT.bindCont next (action.runOn host).1) (action.runOn host).2 = _
  rw [h]
  rfl

theorem runOn_bind_error {action : Action α} {next : α → Action β} {host after : Host}
    {failure : Failure} (h : action.runOn host = (.error failure, after)) :
    (action >>= next).runOn host = (.error failure, after) := by
  change (ExceptT.bindCont next (action.runOn host).1) (action.runOn host).2 = _
  rw [h]
  rfl

/-- A sequence that succeeds has succeeded in both its parts. -/
theorem of_result_bind {action : Action α} {next : α → Action β} {host : Host} {b : β}
    (h : result (action >>= next) host = .ok b) :
    ∃ a after, action.runOn host = (.ok a, after) ∧ result (next a) after = .ok b := by
  rcases hrun : action.runOn host with ⟨failure | a, after⟩
  · rw [result, runOn_bind_error hrun] at h
    cases h
  · rw [result, runOn_bind hrun] at h
    exact ⟨a, after, rfl, h⟩

theorem reads_bind {action : Action α} {next : α → Action β} (h : Reads action)
    (hnext : ∀ a, Reads (next a)) : Reads (action >>= next) := by
  intro host
  have hhost := h host
  rcases hrun : action.runOn host with ⟨failure | a, after⟩
  · rw [hrun] at hhost
    rw [runOn_bind_error hrun]
    exact hhost
  · rw [hrun] at hhost
    rw [runOn_bind hrun, hnext a after]
    exact hhost

/-- An action that changes nothing of any host but what is printed. -/
def Tells (action : Action α) : Prop :=
  ∀ host, ∃ printed, (action.runOn host).2 = { host with printed }

theorem Reads.tells {action : Action α} (h : Reads action) : Tells action :=
  fun host => ⟨host.printed, h host⟩

theorem tells_lift (e : Except Failure α) : Tells (liftM e) := (reads_lift e).tells

theorem tells_print (line : String) : Tells (print line) :=
  fun host => ⟨host.printed ++ line ++ "\n", rfl⟩

theorem Tells.bind {action : Action α} {next : α → Action β} (h : Tells action)
    (hnext : ∀ a, Tells (next a)) : Tells (action >>= next) := by
  intro host
  obtain ⟨printed, hhost⟩ := h host
  rcases hrun : action.runOn host with ⟨failure | a, after⟩
  · rw [hrun] at hhost
    rw [runOn_bind_error hrun]
    exact ⟨printed, hhost⟩
  · rw [hrun] at hhost
    cases hhost
    rw [runOn_bind hrun]
    exact hnext a _

theorem tells_log (quiet : Bool) (line : String) : Tells (log quiet line) := by
  refine reads_get.tells.bind fun host => ?_
  split
  · exact (reads_lift (.ok ())).tells
  · exact tells_print line

/-- After an action that only reads, the rest runs on the same host. -/
theorem result_bind {action : Action α} (h : Reads action) (next : α → Action β) (host : Host) :
    result (action >>= next) host = result action host >>= fun a => result (next a) host := by
  have hhost := h host
  rcases hrun : action.runOn host with ⟨failure | a, after⟩
  · rw [result, runOn_bind_error hrun, result, hrun]
    rfl
  · rw [hrun] at hhost
    cases hhost
    rw [result, runOn_bind hrun, result, hrun]
    rfl

/-- A plain computation at the end does not depend on what happened to the host. -/
theorem result_bind_lift (action : Action α) (next : α → Except Failure β) (host : Host) :
    result (action >>= fun a => liftM (next a)) host = result action host >>= next := by
  rcases hrun : action.runOn host with ⟨failure | a, after⟩
  · rw [result, runOn_bind_error hrun, result, hrun]
    rfl
  · rw [result, runOn_bind hrun, result, hrun]
    rfl

/-- Nor does it do anything to the host. -/
theorem runOn_bind_lift (action : Action α) (next : α → Except Failure β) (host : Host) :
    (Action.runOn (action >>= fun a => liftM (next a)) host).2 = (action.runOn host).2 := by
  rcases hrun : action.runOn host with ⟨failure | a, after⟩
  · rw [runOn_bind_error hrun]
  · rw [runOn_bind hrun]
    rfl

/-- The outcome of an action and the host after it are as described. -/
def Leaves (action : Action α) (host : Host) (post : Except Failure α → Host → Prop) : Prop :=
  post (action.runOn host).1 (action.runOn host).2

variable {action : Action α} {host : Host} {post : Except Failure α → Host → Prop}

theorem Leaves.mono {post' : Except Failure α → Host → Prop} (h : action.Leaves host post)
    (himp : ∀ outcome after, post outcome after → post' outcome after) :
    action.Leaves host post' :=
  himp _ _ h

theorem leaves_pure {a : α} : (pure a : Action α).Leaves host post ↔ post (.ok a) host := Iff.rfl

theorem leaves_throw {failure : Failure} :
    (throw failure : Action α).Leaves host post ↔ post (.error failure) host := Iff.rfl

theorem leaves_lift {e : Except Failure α} :
    (liftM e : Action α).Leaves host post ↔ post e host := Iff.rfl

theorem leaves_get {post : Except Failure Host → Host → Prop} :
    (get : Action Host).Leaves host post ↔ post (.ok host) host := Iff.rfl

theorem leaves_record {event : Event} {post : Except Failure Unit → Host → Prop} :
    (record event).Leaves host post ↔
      post (.ok ()) { host with events := host.events ++ [event] } := Iff.rfl

theorem leaves_setFiles {files : FileTree} {post : Except Failure Unit → Host → Prop} :
    (setFiles files).Leaves host post ↔ post (.ok ()) { host with files } := Iff.rfl

/-- A sequence leaves what its second part leaves behind the first, or what the first
leaves if it fails. -/
theorem leaves_bind {next : α → Action β} {post : Except Failure β → Host → Prop} :
    (action >>= next).Leaves host post ↔
      action.Leaves host fun outcome after =>
        match outcome with
        | .ok a => (next a).Leaves after post
        | .error failure => post (.error failure) after := by
  unfold Leaves
  rcases hrun : action.runOn host with ⟨failure | a, after⟩
  · rw [runOn_bind_error hrun]
  · rw [runOn_bind hrun]

/-- One step of a sequence, with what is known of the step. -/
theorem Leaves.bind {next : α → Action β} {post' : Except Failure β → Host → Prop}
    (h : action.Leaves host post)
    (hnext : ∀ a after, post (.ok a) after → (next a).Leaves after post')
    (hfail : ∀ failure after, post (.error failure) after → post' (.error failure) after) :
    (action >>= next).Leaves host post' := by
  refine leaves_bind.2 (h.mono fun outcome after hpost => ?_)
  cases outcome with
  | ok a => exact hnext a after hpost
  | error failure => exact hfail failure after hpost

/-- A failure is handled on the host that it leaves. -/
theorem leaves_tryCatch {handle : Failure → Action α} :
    (tryCatch action handle).Leaves host post ↔
      action.Leaves host fun outcome after =>
        match outcome with
        | .ok a => post (.ok a) after
        | .error failure => (handle failure).Leaves after post := by
  simp only [Leaves, runOn, tryCatch, tryCatchThe, MonadExceptOf.tryCatch, ExceptT.tryCatch,
    ExceptT.run, ExceptT.mk, bind, StateT.bind]
  rcases action host with ⟨failure | a, after⟩
  · exact Iff.rfl
  · exact Iff.rfl

/-- What has to be done last is done last, also after a failure. -/
theorem Leaves.ensuring {last : Action Unit}
    (h : action.Leaves host fun outcome after =>
      last.Leaves after fun cleared final =>
        (cleared = .ok () → post outcome final) ∧
          ∀ failure, cleared = .error failure → post (.error failure) final) :
    (ensuring action last).Leaves host post := by
  unfold Leaves at h ⊢
  rcases haction : action.runOn host with ⟨outcome, after⟩
  rw [haction] at h
  rcases hlast : last.runOn after with ⟨failure | _, final⟩
  · have hrun : (Action.ensuring action last).runOn host = (.error failure, final) := by
      simp only [Action.ensuring, runOn, ExceptT.run, ExceptT.mk] at haction hlast ⊢
      simp only [haction, hlast]
    rw [hlast] at h
    rw [hrun]
    exact h.2 failure rfl
  · have hrun : (Action.ensuring action last).runOn host = (outcome, final) := by
      simp only [Action.ensuring, runOn, ExceptT.run, ExceptT.mk] at haction hlast ⊢
      simp only [haction, hlast]
    rw [hlast] at h
    rw [hrun]
    exact h.1 rfl

/-- How the run of a tool that behaves in this way comes out. -/
def outcomeOf (command : List String) (behaviour : Behaviour) (limit : Option Number) :
    Except Failure Outcome :=
  if isSendable command then
    match behaviour.refusal with
    | some reason => .ok (.refused reason)
    | none => awaitEnd behaviour limit
  else .error (.fault .badValue)

/-- How waiting for a program that was started fails. -/
inductive WaitFails (limit : Option Number) (behaviour : Behaviour) : Failure → Prop
  /-- The system cannot be asked to wait so long. -/
  | limit {seconds : Number} {fault : Fault} (hlimit : limit = some seconds)
      (hfault : Limit.fault? seconds = some fault) : WaitFails limit behaviour (.fault fault)
  /-- The program is not stopped, and what it wrote is no text. -/
  | garbled (hends : stops behaviour limit = .ok false)
      (hgarbled : (behaviour.garbledOut || behaviour.garbledErr) = true) :
      WaitFails limit behaviour (.fault .badValue)

/-- How the run of a tool fails. -/
inductive RunFails (command : List String) (limit : Option Number) (behaviour : Behaviour) :
    Failure → Prop
  /-- A word of the command cannot be handed to a program. -/
  | command (hword : isSendable command = false) :
      RunFails command limit behaviour (.fault .badValue)
  | waiting {failure : Failure} (hword : isSendable command = true)
      (hstarts : behaviour.refusal = none) (hwait : WaitFails limit behaviour failure) :
      RunFails command limit behaviour failure

section Fails

variable {command : List String} {limit : Option Number} {behaviour : Behaviour}
  {failure : Failure}

/-- Waiting cannot be asked for just when the limit is refused. -/
theorem stops_eq_error_iff :
    stops behaviour limit = .error failure ↔
      ∃ seconds fault, limit = some seconds ∧ Limit.fault? seconds = some fault ∧
        failure = .fault fault := by
  cases limit with
  | none => exact ⟨nofun, fun ⟨_, _, hlimit, _⟩ => nomatch hlimit⟩
  | some seconds =>
      rw [stops]
      cases hfault : Limit.fault? seconds with
      | none =>
          refine ⟨nofun, ?_⟩
          rintro ⟨_, fault, ⟨⟩, hrefused, -⟩
          cases hfault.symm.trans hrefused
      | some fault =>
          constructor
          · rintro ⟨⟩
            exact ⟨seconds, fault, rfl, hfault, rfl⟩
          · rintro ⟨_, _, ⟨⟩, hrefused, rfl⟩
            cases hfault.symm.trans hrefused
            rfl

theorem awaitEnd_eq_error_iff :
    awaitEnd behaviour limit = .error failure ↔ WaitFails limit behaviour failure := by
  unfold awaitEnd
  cases hstops : stops behaviour limit with
  | error refused =>
      obtain ⟨seconds, fault, hlimit, hfault, rfl⟩ := stops_eq_error_iff.1 hstops
      constructor
      · rintro ⟨⟩
        exact .limit hlimit hfault
      · rintro (⟨hother, hrefused⟩ | ⟨hends, -⟩)
        · cases hlimit.symm.trans hother
          cases hfault.symm.trans hrefused
          rfl
        · cases hstops.symm.trans hends
  | ok stopped =>
      -- The system could be asked, so that no limit is at fault.
      have hasked {seconds : Number} {fault : Fault} (hlimit : limit = some seconds)
          (hfault : Limit.fault? seconds = some fault) : False := by
        cases hstops.symm.trans (stops_eq_error_iff.2 ⟨seconds, fault, hlimit, hfault, rfl⟩)
      cases stopped with
      | true =>
          constructor
          · rintro ⟨⟩
          · rintro (⟨hlimit, hfault⟩ | ⟨hends, -⟩)
            · exact (hasked hlimit hfault).elim
            · cases hstops.symm.trans hends
      | false =>
          cases hgarbled : behaviour.garbledOut || behaviour.garbledErr with
          | true =>
              constructor
              · rintro ⟨⟩
                exact .garbled hstops hgarbled
              · rintro (⟨hlimit, hfault⟩ | -)
                · exact (hasked hlimit hfault).elim
                · rfl
          | false =>
              constructor
              · rintro ⟨⟩
              · rintro (⟨hlimit, hfault⟩ | ⟨-, htrue⟩)
                · exact (hasked hlimit hfault).elim
                · cases hgarbled.symm.trans htrue

/-- **How the run of a tool fails:** at its command, or while its end is waited for. -/
theorem outcomeOf_eq_error_iff :
    outcomeOf command behaviour limit = .error failure ↔
      RunFails command limit behaviour failure := by
  unfold outcomeOf
  cases hsendable : isSendable command with
  | false =>
      constructor
      · rintro ⟨⟩
        exact .command hsendable
      · rintro (- | ⟨hword, -⟩)
        · rfl
        · cases hsendable.symm.trans hword
  | true =>
      rw [if_pos rfl]
      cases hrefusal : behaviour.refusal with
      | some reason =>
          constructor
          · rintro ⟨⟩
          · rintro (hword | ⟨-, hstarts, -⟩)
            · cases hsendable.symm.trans hword
            · cases hrefusal.symm.trans hstarts
      | none =>
          rw [awaitEnd_eq_error_iff]
          constructor
          · exact fun hwait => .waiting hsendable hrefusal hwait
          · rintro (hword | ⟨-, -, hwait⟩)
            · cases hsendable.symm.trans hword
            · exact hwait

/-- Whatever fails there is a fault, which is no failure of the tool. -/
theorem WaitFails.exists_fault (h : WaitFails limit behaviour failure) :
    ∃ fault, failure = .fault fault := by
  cases h with
  | limit => exact ⟨_, rfl⟩
  | garbled => exact ⟨_, rfl⟩

theorem RunFails.exists_fault (h : RunFails command limit behaviour failure) :
    ∃ fault, failure = .fault fault := by
  cases h with
  | command => exact ⟨_, rfl⟩
  | waiting _ _ hwait => exact hwait.exists_fault

end Fails

/-- The host after a tool was to be run.  A command that the system does not take is not even
noted. -/
def hostAfter (tool : Tool) (command : List String) (limit : Option Number) (host : Host) : Host :=
  if isSendable command then
    { host with
      events := host.events ++ [.run tool command limit], files := host.afterRun tool }
  else host

/-- The run of a tool is noted, and it has its effects. -/
theorem leaves_runTool {tool : Tool} {command : List String} {limit : Option Number}
    {post : Except Failure Outcome → Host → Prop} :
    (runTool tool command limit).Leaves host post ↔
      post (outcomeOf command (host.behaviour tool) limit) (hostAfter tool command limit host) := by
  unfold runTool outcomeOf hostAfter Host.afterRun
  cases isSendable command with
  | false => exact Iff.rfl
  | true =>
      let noted : Host := { host with events := host.events ++ [.run tool command limit] }
      have hbehaviour : noted.behaviour tool = host.behaviour tool := by
        cases tool <;> rfl
      simp only [Bool.not_true, Bool.false_eq_true, if_false, if_true]
      rw [leaves_bind, leaves_record]
      simp only
      rw [leaves_bind, leaves_get]
      simp only
      rw [hbehaviour]
      generalize host.behaviour tool = behaviour
      cases behaviour.refusal with
      | some reason => exact Iff.rfl
      | none =>
          simp only
          rw [leaves_bind, leaves_setFiles]
          exact Iff.rfl

theorem runOn_runTool (tool : Tool) (command : List String) (limit : Option Number)
    (host : Host) :
    (runTool tool command limit).runOn host =
      (outcomeOf command (host.behaviour tool) limit, hostAfter tool command limit host) := by
  have hrun : (runTool tool command limit).Leaves host fun result after =>
      result = outcomeOf command (host.behaviour tool) limit ∧
        after = hostAfter tool command limit host := leaves_runTool.2 ⟨rfl, rfl⟩
  exact Prod.ext hrun.1 hrun.2

theorem result_runTool (tool : Tool) (command : List String) (limit : Option Number)
    (host : Host) :
    (runTool tool command limit).result host = outcomeOf command (host.behaviour tool) limit := by
  rw [result, runOn_runTool]

end Action

end Montage
