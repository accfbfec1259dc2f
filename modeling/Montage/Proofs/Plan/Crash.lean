import Montage.Proofs.Crash
import Montage.Proofs.Plan.Edit
import Montage.Proofs.Plan.Join
import Montage.Proofs.Tempo

/-!
# Planners do not crash

A planner fails with what its settings or its parts are refused for, so it crashes only
where it computes.  On finite numbers it never does: every speed that passes has stages.
What is left is a join of so many clips that the number of one cannot be read from its
label.
-/

namespace Montage

variable {α : Type}

namespace Plan

/-- A plan that reads a single input is refused by compilation failures only. -/
theorem Rejection.isCompilation {failure : Failure} (h : Rejection 1 failure) :
    failure.isCompilation = true := by
  have hlimit := Decimal.one_lt_unreadable
  cases h with
  | field | probe | noTarget | durationNotPositive => rfl
  | overlong hlong => omega

/-- A finite speed is refused by compilation failures only. -/
theorem SpeedFails.isCompilation {x : Float} {failure : Failure} (hx : x.isFinite = true)
    (h : SpeedFails (Number.float x) failure) : failure.isCompilation = true := by
  rcases h with hcheck | ⟨hcheck, hstages⟩
  · unfold Tempo.check at hcheck
    split at hcheck
    · cases hcheck
      rfl
    · cases hcheck
  · obtain ⟨list, hlist⟩ := Tempo.exists_stages_of_check hx hcheck
    rw [hlist] at hstages
    cases hstages

end Plan

namespace Edit

end Edit

end Montage
