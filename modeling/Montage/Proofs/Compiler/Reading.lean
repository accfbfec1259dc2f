import Montage.Compiler
import Montage.Proofs.Host.Action

/-!
# What a compiler reads

Every handler of the compiler is a list of readings and then a call of a planner.  The
readings look at the request, the files and the clock and change nothing, so the first
one that fails decides: `Follows` says that of a computation, with what is known of it
once all readings pass.
-/

namespace Montage.Compiler

variable {α β : Type}

/-- One thing that is found out about a request before it is planned. -/
inductive Reading
  /-- The name of a file that has to be given. -/
  | name (keys : List String)
  /-- What the readings before have to have brought. -/
  | demand (isMet : Bool) (field : String) (cause : FieldCause)
  | number (keys : List String) (field : String)
  | speed (low high : Option Float)
  | switch (keys : List String) (field : String)
  | filters (keys : List String) (field : String)
  | format
  | codec (keys : List String) (field : String)
  | names
  | size
  /-- The clip that a value names. -/
  | clip (v : Value)
  /-- The name of the output. -/
  | target

/-- Only whether a computation fails, and how. -/
def outcome (x : Except Failure α) : Except Failure Unit := x.map fun _ => ()

/-- The size that a request asks for. -/
def sizeOf (request : Request) : Except Failure (Option Resize) :=
  Resize.read (request.field ["resolution"]) (request.field ["resizeMode", "resize_mode"])
    "resolution"

/-- What a reading comes to. -/
def Reading.run (c : Compiler) (request : Request) (host : Host) : Reading → Except Failure Unit
  | name keys => outcome (Request.requiredName request keys)
  | demand isMet field cause => if isMet then .ok () else .error (.field (some field) cause)
  | number keys field => outcome (Request.number? (request.field keys) field)
  | speed low high => outcome (Request.speed (request.field ["speed"]) "speed" low high)
  | switch keys field => outcome (Request.switch (request.field keys) field false)
  | filters keys field => outcome (Request.filters (request.field keys) field)
  | format => outcome (Request.format? (request.field ["format"]))
  | codec keys field => outcome (Request.codec? (request.field keys) field)
  | names => outcome (Request.nameList (request.field ["videos"]) "videos")
  | size => outcome (sizeOf request)
  | clip v => outcome (Resolver.resolve host c.directories v)
  | target => outcome (Action.result (c.target request "" "") host)

section

variable (c : Compiler) (request : Request) (host : Host)

/-- A computation goes through readings: it fails like the first that fails, and if
all of them pass, `rest` is known of it. -/
def Follows (rest : Except Failure β → Prop) : List Reading → Except Failure β → Prop
  | [], x => rest x
  | reading :: readings, x =>
    match reading.run c request host with
    | .error failure => x = .error failure
    | .ok () => Follows rest readings x

variable {c request host} {rest : Except Failure β → Prop}

/-- One reading more in front of a computation. -/
theorem Follows.step {reading : Reading} {readings : List Reading} {e : Except Failure α}
    {next : α → Except Failure β} (hreading : reading.run c request host = outcome e)
    (hnext : ∀ a, e = .ok a → Follows c request host rest readings (next a)) :
    Follows c request host rest (reading :: readings) (e >>= next) := by
  unfold Follows
  rw [hreading]
  cases e with
  | error failure => rfl
  | ok a => exact hnext a rfl

theorem Follows.lifted {reading : Reading} {readings : List Reading} {e : Except Failure α}
    {next : α → Action β} (hreading : reading.run c request host = outcome e)
    (hnext : ∀ a, e = .ok a → Follows c request host rest readings ((next a).result host)) :
    Follows c request host rest (reading :: readings) (Action.result (liftM e >>= next) host) := by
  rw [Action.result_bind (Action.reads_lift e), Action.result_lift]
  exact Follows.step hreading hnext

/-- The same for an action that only reads. -/
theorem Follows.action {reading : Reading} {readings : List Reading} {action : Action α}
    {next : α → Action β} (hreads : action.Reads)
    (hreading : reading.run c request host = outcome (action.result host))
    (hnext : ∀ a, action.result host = .ok a →
      Follows c request host rest readings ((next a).result host)) :
    Follows c request host rest (reading :: readings) (Action.result (action >>= next) host) := by
  rw [Action.result_bind hreads]
  exact Follows.step hreading hnext

/-- A demand that is not met is a refusal. -/
theorem Follows.demand {isMet : Bool} {field : String} {cause : FieldCause}
    {readings : List Reading} {x : Except Failure β}
    (hunmet : isMet = false → x = .error (.field (some field) cause))
    (hmet : isMet = true → Follows c request host rest readings x) :
    Follows c request host rest (.demand isMet field cause :: readings) x := by
  cases isMet with
  | false => exact hunmet rfl
  | true => exact hmet rfl

theorem Follows.refused {p : Prop} [Decidable p] {isMet : Bool} {field : String}
    {cause : FieldCause} {readings : List Reading} {action : Action β} (hp : isMet = false ↔ p)
    (hmet : isMet = true → Follows c request host rest readings (action.result host)) :
    Follows c request host rest (.demand isMet field cause :: readings)
      (Action.result (if p then liftM (Request.refuse (some field) cause : Except Failure β)
        else action) host) := by
  refine Follows.demand (fun h => ?_) fun h => ?_
  · rw [if_pos (hp.1 h)]
    rfl
  · rw [if_neg fun hpos => by simp [hp.2 hpos] at h]
    exact hmet h

/-- Either all readings pass, or the computation fails like one that does not. -/
theorem Follows.cases {readings : List Reading} {x : Except Failure β}
    (h : Follows c request host rest readings x) :
    ((∀ reading ∈ readings, reading.run c request host = .ok ()) ∧ rest x) ∨
      ∃ reading ∈ readings, ∃ failure,
        reading.run c request host = .error failure ∧ x = .error failure := by
  induction readings with
  | nil => exact .inl ⟨List.forall_mem_nil _, h⟩
  | cons reading readings ih =>
      unfold Follows at h
      split at h
      · next failure hfails => exact .inr ⟨reading, List.mem_cons_self, failure, hfails, h⟩
      · next hpasses =>
          rcases ih h with ⟨hall, hrest⟩ | ⟨other, hother, hfailure⟩
          · exact .inl ⟨List.forall_mem_cons.2 ⟨hpasses, hall⟩, hrest⟩
          · exact .inr ⟨other, List.mem_cons_of_mem _ hother, hfailure⟩

/-- What has succeeded has passed all its readings. -/
theorem Follows.of_ok {readings : List Reading} {x : Except Failure β} {b : β}
    (h : Follows c request host rest readings x) (hx : x = .ok b) : rest (.ok b) := by
  subst hx
  rcases h.cases with ⟨-, hrest⟩ | ⟨reading, -, failure, -, hfailure⟩
  · exact hrest
  · cases hfailure

end

end Montage.Compiler
