import Montage.Proofs.Ends

/-!
# Kinds of failures

Of many computations it is enough to know what they can fail with (`FailsWith`).  Failures of
the engine are told apart by an exit status of their own, so it matters above all that nothing
which is done before the engine is called can fail in the same way (`FailsEarly`).
-/

namespace Montage

variable {α β : Type}

/-- A computation fails, if it does, with a failure of this kind. -/
def FailsWith (kind : Failure → Prop) (x : Except Failure α) : Prop :=
  ∀ failure, x = .error failure → kind failure

namespace FailsWith

variable {kind : Failure → Prop}

theorem mono {other : Failure → Prop} {x : Except Failure α} (h : FailsWith kind x)
    (hkind : ∀ failure, kind failure → other failure) : FailsWith other x :=
  fun failure hx => hkind failure (h failure hx)

theorem ok (a : α) : FailsWith kind (.ok a) := nofun

theorem error {failure : Failure} (h : kind failure) :
    FailsWith kind (.error failure : Except Failure α) := by
  rintro other ⟨⟩
  exact h

theorem bind {x : Except Failure α} {next : α → Except Failure β} (h : FailsWith kind x)
    (hnext : ∀ a, FailsWith kind (next a)) : FailsWith kind (x >>= next) := by
  cases x with
  | ok a => exact hnext a
  | error failure => exact error (h failure rfl)

/-- What is thrown stops whatever stands behind it. -/
theorem thrown {failure : Failure} {next : α → Except Failure β} (h : kind failure) :
    FailsWith kind (throw failure >>= next) := error h

theorem ite {p : Prop} {_ : Decidable p} {x y : Except Failure α} (hx : FailsWith kind x)
    (hy : FailsWith kind y) : FailsWith kind (if p then x else y) := by
  split
  · exact hx
  · exact hy

/-- A refusal under a condition, and the rest otherwise. -/
theorem guard {p : Prop} {_ : Decidable p} {failure : Failure} {next : Unit → Except Failure α}
    (h : kind failure) (hnext : FailsWith kind (next ())) :
    FailsWith kind (if p then throw failure >>= next else next ()) := .ite (.thrown h) hnext

end FailsWith

/-- What is known of an end is known of a failure. -/
theorem Ends.failsWith {good : α → Prop} {bad : Failure → Prop} {x : Except Failure α}
    (h : Ends good bad x) : FailsWith bad x := by
  rintro failure rfl
  exact h

/-- A computation fails, if it does, with a failure that is not one of the engine. -/
def FailsEarly (x : Except Failure α) : Prop :=
  FailsWith (fun failure => failure.isEngine = false) x

end Montage
