import Montage.Proofs.Compiler.Plans

/-!
# Drafting

A compiler drafts the plan of a request and then answers the question of the draft, if it has
one.  Drafting changes nothing but what is printed (`tells_draft`), so that a compilation is its
draft and at most one call of the probe on the host as it was (`compile_of_settled`,
`compile_of_awaiting`).
-/

namespace Montage.Compiler

open Montage.Action

variable {α : Type} {c : Compiler} {request : Request}

theorem tells_find (v : Value) : (c.find v).Tells := (reads_find v).tells

theorem tells_replacement (key : String) (loop : Bool) :
    (c.replacement request key loop).Tells := by
  unfold replacement
  simp only
  split
  · exact tells_lift (.ok none)
  · exact (tells_find _).bind fun _ => (tells_lift _).bind fun _ => tells_lift (.ok _)

/-- Every handler ends in this way: the output is named, a line is told, and what is left is
computed. -/
theorem tells_named (task extension line : String) (plan : String → Except Failure α) :
    Action.Tells (c.target request task extension >>= fun target =>
      c.tell line >>= fun _ => liftM (plan target)) :=
  (reads_target task extension).tells.bind fun target =>
    (tells_log c.config.quiet line).bind fun _ => tells_lift (plan target)

theorem tells_convert : (c.convert request).Tells := by
  refine (tells_lift _).bind fun _ => (tells_lift _).bind fun format => ?_
  cases format with
  | none => exact tells_lift _
  | some format => exact (tells_find _).bind fun _ => tells_named _ _ _ _

theorem tells_changeSpeed : (c.changeSpeed request).Tells := by
  unfold changeSpeed
  simp only
  refine (tells_lift _).bind fun _ => ?_
  split
  · exact tells_lift _
  · exact (tells_lift _).bind fun _ => (tells_find _).bind fun _ => tells_named _ _ _ _

theorem tells_mute : (c.mute request).Tells :=
  (tells_lift _).bind fun _ => (tells_find _).bind fun _ => tells_named _ _ _ _

theorem tells_addAudio : (c.addAudio request).Tells := by
  unfold addAudio
  split
  · exact tells_lift _
  · refine (tells_lift _).bind fun _ => (tells_find _).bind fun _ =>
      (tells_replacement _ _).bind fun sound => ?_
    split
    · exact tells_named _ _ _ _
    · exact tells_named _ _ _ fun _ => .error _

theorem tells_custom : (c.custom request).Tells :=
  (tells_lift _).bind fun _ => (tells_find _).bind fun _ => (tells_replacement _ _).bind fun _ =>
    (tells_lift _).bind fun _ => tells_named _ _ _ fun _ => .ok _

theorem tells_stitch : (c.stitch request).Tells := by
  refine (tells_lift _).bind fun _ => ?_
  split
  · exact tells_lift _
  · exact (tells_lift _).bind fun _ => (tells_lift _).bind fun _ => (tells_lift _).bind fun _ =>
      reads_get.tells.bind fun _ => (tells_lift _).bind fun _ =>
        (tells_replacement _ _).bind fun _ => tells_named _ _ _ _

theorem tells_settled {plan : Action (Plan Number)} (h : plan.Tells) : (settled plan).Tells :=
  h.bind fun _ => tells_lift (.ok _)

/-- No operation does more than print. -/
theorem tells_perform (operation : Operation) : (c.perform request operation).Tells := by
  cases operation with
  | convert => exact tells_settled tells_convert
  | speed => exact tells_settled tells_changeSpeed
  | mute => exact tells_settled tells_mute
  | addAudio => exact tells_settled tells_addAudio
  | custom => exact tells_custom
  | stitch => exact tells_settled tells_stitch

theorem tells_draft (c : Compiler) (request : Request) : (c.draft request).Tells :=
  (tells_lift _).bind fun operation => tells_perform operation

variable {host : Host}

/-- A draft leaves the host as it is but for what is printed. -/
theorem runOn_draft (c : Compiler) (request : Request) (host : Host) :
    ∃ printed,
      (c.draft request).runOn host = ((c.draft request).result host, { host with printed }) := by
  obtain ⟨printed, hafter⟩ := tells_draft c request host
  exact ⟨printed, Prod.ext rfl hafter⟩

/-- Without a draft there is no plan, whatever the probe. -/
theorem compile_of_error {failure : Failure} (h : (c.draft request).result host = .error failure) :
    ∃ printed, ∀ probe,
      (c.compile request probe).runOn host = (.error failure, { host with printed }) := by
  obtain ⟨printed, hdraft⟩ := runOn_draft c request host
  rw [h] at hdraft
  exact ⟨printed, fun probe => runOn_bind_error hdraft⟩

/-- A settled draft is the plan, whatever the probe. -/
theorem compile_of_settled {outcome : Except Failure (Plan Number)}
    (h : (c.draft request).result host = .ok (.settled outcome)) :
    ∃ printed, ∀ probe,
      (c.compile request probe).runOn host = (outcome, { host with printed }) := by
  obtain ⟨printed, hdraft⟩ := runOn_draft c request host
  rw [h] at hdraft
  exact ⟨printed, fun probe => runOn_bind hdraft⟩

/-- A draft that awaits a length is answered by one call of the probe. -/
theorem compile_of_awaiting {clip : Clip} {resume : Number → Except Failure (Plan Number)}
    (h : (c.draft request).result host = .ok (.awaiting clip resume)) :
    ∃ printed, ∀ probe, (c.compile request probe).runOn host =
      Action.runOn (probe clip >>= fun answer => liftM (usableLength clip answer >>= resume))
        { host with printed } := by
  obtain ⟨printed, hdraft⟩ := runOn_draft c request host
  rw [h] at hdraft
  refine ⟨printed, fun probe => (runOn_bind hdraft).trans ?_⟩
  refine congrArg (Action.runOn · _) (bind_congr fun answer => ?_)
  cases usableLength clip answer <;> rfl

/-- The draft of the operation that a request names. -/
theorem result_draft (c : Compiler) (request : Request) (host : Host) :
    (c.draft request).result host =
      Operation.ofValue (request.field ["operation"]) >>= fun operation =>
        (c.perform request operation).result host :=
  result_bind (reads_lift _) _ _

/-- Every operation but a custom edit settles what it drafts. -/
theorem settled_of_perform {operation : Operation} {draft : Draft Number}
    (hoperation : operation ≠ .custom)
    (h : (c.perform request operation).result host = .ok draft) :
    ∃ outcome, draft = .settled outcome := by
  have hsettled {action : Action (Plan Number)}
      (haction : (settled action).result host = .ok draft) :
      ∃ outcome, draft = .settled outcome := by
    obtain ⟨plan, after, -, hdraft⟩ := of_result_bind haction
    exact ⟨.ok plan, (Except.ok.inj hdraft).symm⟩
  cases operation with
  | custom => exact absurd rfl hoperation
  | convert | speed | mute | addAudio | stitch => exact hsettled h

end Montage.Compiler
