import Montage.Failure

/-!
# Crashes

A computation crashes if it fails with anything but a compilation failure.  The lemmas
follow a computation step by step in both directions, so that what crashes is known
exactly.
-/

namespace Montage

variable {α β : Type}

/-- A computation ends with a failure that does not count as one of the compilation. -/
def Crashes (x : Except Failure α) : Prop :=
  ∃ failure, x = .error failure ∧ failure.isCompilation = false

theorem not_crashes_ok (a : α) : ¬ Crashes (.ok a : Except Failure α) :=
  fun ⟨_, h, _⟩ => nomatch h

theorem crashes_error {failure : Failure} :
    Crashes (.error failure : Except Failure α) ↔ failure.isCompilation = false := by
  constructor
  · rintro ⟨other, h, hother⟩
    cases h
    exact hother
  · exact fun h => ⟨failure, rfl, h⟩

theorem not_crashes_field (name : Option String) (cause : FieldCause) :
    ¬ Crashes (.error (.field name cause) : Except Failure α) :=
  fun h => nomatch crashes_error.1 h

theorem not_crashes_resolution (file : String) (cause : NameCause) :
    ¬ Crashes (.error (.resolution file cause) : Except Failure α) :=
  fun h => nomatch crashes_error.1 h

theorem crashes_fault (fault : Fault) : Crashes (.error (.fault fault) : Except Failure α) :=
  ⟨_, rfl, rfl⟩

/-- A sequence crashes in its first part or, after that, in its second. -/
theorem crashes_bind {x : Except Failure α} {next : α → Except Failure β} :
    Crashes (x >>= next) ↔ Crashes x ∨ ∃ a, x = .ok a ∧ Crashes (next a) := by
  cases x with
  | error failure =>
      change Crashes (.error failure) ↔ _
      simp [crashes_error]
  | ok a =>
      change Crashes (next a) ↔ _
      simp [not_crashes_ok]

/-- What follows a computation and never crashes does not matter. -/
theorem crashes_bind_of_not {x : Except Failure α} {next : α → Except Failure β}
    (h : ∀ a, x = .ok a → ¬ Crashes (next a)) : Crashes (x >>= next) ↔ Crashes x := by
  rw [crashes_bind]
  constructor
  · rintro (hx | ⟨a, ha, hnext⟩)
    · exact hx
    · exact absurd hnext (h a ha)
  · exact .inl

/-- A sequence of parts that never crash never crashes. -/
theorem not_crashes_bind {x : Except Failure α} {next : α → Except Failure β} (hx : ¬ Crashes x)
    (h : ∀ a, x = .ok a → ¬ Crashes (next a)) : ¬ Crashes (x >>= next) := by
  rwa [crashes_bind_of_not h]

end Montage
