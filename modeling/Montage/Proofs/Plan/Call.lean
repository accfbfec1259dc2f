import Montage.Proofs.Plan.Edit
import Montage.Proofs.Plan.Join

/-!
# Every planner makes closed plans

The six planners under one name.  Whatever a planner is called with, it returns a
closed plan or fails, and none of the checks of the builder or of the assembler on
graphs, reads and maps is what it fails with (`Call.plan_ends`).
-/

namespace Montage.Plan

variable {α : Type} [Arithmetic α]

/-- A call of a planner. -/
inductive Call (α : Type)
  | convert (clip : Clip) (target format : String)
  | changeSpeed (clip : Clip) (ratio : α) (target : String)
  | mute (clip : Clip) (target : String)
  | replaceSound (clip sound : Clip) (loop temporary : Bool) (target : String)
  | custom (edit : Edit α) (clip : Clip) (target : String) (probe : Option (Probe α))
  | join (clips : List Clip) (resize : Option Resize) (sound : Sound) (target : String)
    (format : Option String)

namespace Call

/-- What the planner returns. -/
def plan : Call α → Except Failure (Plan α)
  | convert clip target format => Plan.convert clip target format
  | changeSpeed clip ratio target => Plan.changeSpeed clip ratio target
  | mute clip target => Plan.mute clip target
  | replaceSound clip sound loop temporary target =>
    Plan.replaceSound clip sound loop temporary target
  | custom edit clip target probe => (edit.plan clip target).settle probe
  | join clips resize sound target format => Plan.join clips resize sound target format

/-- The failure is one of the probe that was handed in. -/
def ProbeFails (call : Call α) (failure : Failure) : Prop :=
  match call with
  | custom _ clip _ (some ask) => ask clip = .error failure
  | _ => False

/-- So many clips are joined that the number of the last cannot be read from its
label. -/
def IsOverlong (call : Call α) : Prop :=
  match call with
  | join clips _ _ _ _ => Decimal.unreadable < clips.length
  | _ => False

/-- **Every planner makes closed plans.**  The checks on graphs, reads and maps refuse
none of them, for an empty target as for any other: a failure that looks like one of a
check is one of the probe, or the fault of reading a label in a list of clips longer
than any machine holds. -/
theorem plan_ends (call : Call α) :
    Ends Closed
      (fun failure => failure.isCheck = true →
        call.ProbeFails failure ∨ (failure = .fault .badValue ∧ call.IsOverlong))
      call.plan := by
  -- Plans that read a single input have no label that is too long.
  have hshort {x : Except Failure (Plan α)} (hx : Ends Closed (Rejection 1) x) :
      Ends Closed (fun failure => failure.isCheck = true →
        call.ProbeFails failure ∨ (failure = .fault .badValue ∧ call.IsOverlong)) x := by
    refine hx.mono (fun _ h => h) fun failure hrejected hcheck => ?_
    rw [hrejected.isCheck_eq_false] at hcheck
    cases hcheck
  cases call with
  | convert clip target format => exact hshort (convert_ends clip target format)
  | changeSpeed clip ratio target =>
      refine (changeSpeed_ends clip ratio target).mono (fun _ h => h) ?_
      rintro failure (hrejected | hspeed) hcheck
      · rw [hrejected.isCheck_eq_false] at hcheck
        cases hcheck
      · rw [hspeed.isCheck_eq_false] at hcheck
        cases hcheck
  | mute clip target => exact hshort (mute_ends clip target)
  | replaceSound clip sound loop temporary target =>
      exact hshort (replaceSound_ends clip sound loop temporary target)
  | custom edit clip target probe =>
      refine (edit.settle_ends clip target probe).mono (fun _ h => h) ?_
      rintro failure (hfailure | ⟨ask, rfl, hask⟩) hcheck
      · rw [hfailure] at hcheck
        cases hcheck
      · exact .inl hask
  | join clips resize sound target format =>
      refine (join_ends clips resize sound target format).mono (fun _ h => h) ?_
      intro failure hrejected hcheck
      obtain ⟨hfault, hlong⟩ := hrejected.eq_of_isCheck hcheck
      exact .inr ⟨hfault, hlong⟩

end Call

end Montage.Plan
