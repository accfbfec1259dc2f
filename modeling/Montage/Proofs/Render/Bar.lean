import Mathlib.Data.List.Basic
import Mathlib.Order.Bounds.Basic
import Mathlib.Algebra.Order.Ring.Rat
import Montage.Proofs.Render.Outcome

/-!
# The progress bar

The bar is driven by steps.  Each step is the distance from where the bar stands to what a line
tells, cut off at the end of the output and at zero, and the bar stands where its steps sum up
to.  In exact arithmetic a step leads to the larger of the two (`add_step`), so that the bar
stands at the largest position it was told (`isGreatest_steps`).
-/

namespace Montage.Progress

/-- The positions of a report that can be read to its end are those that its lines tell. -/
theorem positions_eq {lines : List String} (h : Readable lines) :
    (positions lines).1 = (lines.filterMap told?).map fun n =>
      .float (Float.ofInt n / 1000000.0) := by
  induction lines with
  | nil => rfl
  | cons line rest ih =>
      have hrest : Readable rest := fun other hother => h other (List.mem_cons_of_mem _ hother)
      rw [positions, seconds_eq]
      cases htold : told? line with
      | none => simpa [htold] using ih hrest
      | some n =>
          have hfinite : (Float.ofInt n).isFinite = true := h line List.mem_cons_self n htold
          simpa [htold, hfinite] using ih hrest

/-- The position that a line tells, in seconds.  `positions_eq` has it with its rounding. -/
def exactSeconds? (line : String) : Option Rat := (told? line).map fun n => (n : Rat) / 1000000

/-- The updates of an exact bar for the lines of a report. -/
def updates (total : Option Rat) (lines : List String) : List Rat :=
  steps total 0 (lines.filterMap exactSeconds?)

/-- Where an exact bar stands after the lines of a report. -/
def standing (total : Option Rat) (lines : List String) : Rat := (updates total lines).sum

/-- A position, or the total if that comes first. -/
def upTo (total : Option Rat) (seconds : Rat) : Rat :=
  match total with
  | none => seconds
  | some total => min seconds total

variable (total : Option Rat)

theorem capped_eq (seconds : Rat) : capped total seconds = upTo total seconds := by
  cases total with
  | none => rfl
  | some total =>
      change (if decide (total < seconds) = true then total else seconds) = min seconds total
      simp only [decide_eq_true_eq, ← not_le, ite_not, min_def]

/-- A step leads to the larger of where the bar stands and what it is told. -/
theorem add_step (position seconds : Rat) :
    position + step total position seconds = max position (upTo total seconds) := by
  rw [step, capped_eq]
  change position + (if decide (0 < upTo total seconds - position) = true
    then upTo total seconds - position else 0) = _
  simp only [decide_eq_true_eq]
  split
  next h => rw [add_sub_cancel, max_eq_right (sub_pos.1 h).le]
  next h => rw [add_zero, max_eq_left (not_lt.1 (mt sub_pos.2 h))]

theorem step_nonneg (position seconds : Rat) : 0 ≤ step total position seconds := by
  have h := le_max_left position (upTo total seconds)
  rw [← add_step] at h
  exact le_add_iff_nonneg_right position |>.1 h

/-- No update takes the bar back. -/
theorem steps_nonneg (told : List Rat) (position : Rat) :
    ∀ update ∈ steps total position told, 0 ≤ update := by
  induction told generalizing position with
  | nil => nofun
  | cons seconds told ih =>
      intro update hupdate
      rcases List.mem_cons.1 hupdate with rfl | hlater
      · exact step_nonneg total position seconds
      · exact ih _ update hlater

/-- The bar goes on from where it stands. -/
theorem steps_append (told more : List Rat) (position : Rat) :
    steps total position (told ++ more) = steps total position told ++
      steps total (position + (steps total position told).sum) more := by
  induction told generalizing position with
  | nil => simp [steps]
  | cons seconds told ih =>
      rw [List.cons_append, steps, ih, steps, List.sum_cons, ← add_assoc]
      rfl

/-- The bar stands at the largest of where it began and the positions it was told, each cut off
at the total. -/
theorem isGreatest_steps (told : List Rat) (position : Rat) :
    IsGreatest (insert position {x | ∃ seconds ∈ told, x = upTo total seconds})
      (position + (steps total position told).sum) := by
  induction told generalizing position with
  | nil => simp [steps]
  | cons seconds told ih =>
      -- The first step leads to a position from which the rest begins.
      obtain ⟨hmem, hupper⟩ := ih (max position (upTo total seconds))
      rw [steps, List.sum_cons, ← add_assoc]
      change IsGreatest _ (position + step total position seconds +
        (steps total (position + step total position seconds) told).sum)
      rw [add_step]
      have hbegan := hupper (Set.mem_insert _ _)
      refine ⟨?_, ?_⟩
      · rcases hmem with hstays | ⟨later, hlater, hreached⟩
        · rw [hstays]
          rcases max_choice position (upTo total seconds) with h | h
          · exact .inl h
          · exact .inr ⟨seconds, List.mem_cons_self, h⟩
        · exact .inr ⟨later, List.mem_cons_of_mem _ hlater, hreached⟩
      · rintro x (rfl | ⟨other, hother, rfl⟩)
        · exact (le_max_left _ _).trans hbegan
        · rcases List.mem_cons.1 hother with rfl | hlater
          · exact (le_max_right _ _).trans hbegan
          · exact hupper (.inr ⟨other, hlater, rfl⟩)

/-- The updates for a longer report go on with those for its beginning. -/
theorem updates_append (lines more : List String) :
    updates total (lines ++ more) = updates total lines ++
      steps total (standing total lines) (more.filterMap exactSeconds?) := by
  rw [updates, List.filterMap_append, steps_append, zero_add]
  rfl

/-- **The bar is a running maximum.**  After any lines it stands at the largest of zero and the
positions that they told, each cut off at the total.  It does not pass the total, no update takes
it back, more lines only add updates, and a line that tells no position adds none.  A report that
can be read gives just these positions, in the rounding of doubles. -/
theorem standing_isGreatest (htotal : ∀ t ∈ total, 0 < t) (lines : List String) :
    IsGreatest
        (insert 0 {x | ∃ seconds ∈ lines.filterMap exactSeconds?, x = upTo total seconds})
        (standing total lines) ∧
      (∀ t ∈ total, standing total lines ≤ t) ∧
      (∀ update ∈ updates total lines, 0 ≤ update) ∧
      (∀ more, updates total lines <+: updates total (lines ++ more) ∧
        standing total lines ≤ standing total (lines ++ more)) ∧
      (∀ line, told? line = none → updates total (lines ++ [line]) = updates total lines) ∧
      (Readable lines → (positions lines).1 =
        (lines.filterMap told?).map fun n => .float (Float.ofInt n / 1000000.0)) := by
  have hgreatest := isGreatest_steps total (lines.filterMap exactSeconds?) 0
  rw [zero_add] at hgreatest
  refine ⟨hgreatest, ?_, steps_nonneg total _ 0, fun more => ?_, fun line hline => ?_,
    positions_eq⟩
  · intro t ht
    obtain rfl : total = some t := ht
    rcases hgreatest.1 with hzero | ⟨seconds, -, hreached⟩
    · exact hzero.trans_le (htotal t rfl).le
    · exact hreached.trans_le (min_le_right seconds t)
  · rw [standing, standing, updates_append, List.sum_append]
    refine ⟨List.prefix_append _ _, le_add_of_nonneg_right ?_⟩
    exact List.sum_nonneg (steps_nonneg total _ _)
  · rw [updates_append, List.filterMap_cons, exactSeconds?, hline]
    exact List.append_nil _

/-- A bar that is told to go back and then past its end stands at its end. -/
theorem standing_past_the_end :
    (∀ t ∈ some (10 : Rat), 0 < t) ∧
      standing (some 10) ["out_time_us=2000000", "out_time_ms=-1", "out_time_us=99000000"] =
        10 := by
  have htotal : ∀ t ∈ some (10 : Rat), 0 < t := by
    intro t ht
    obtain rfl : 10 = t := Option.some.inj ht
    norm_num
  obtain ⟨⟨-, hupper⟩, hle, -⟩ := standing_isGreatest (some 10) htotal
    ["out_time_us=2000000", "out_time_ms=-1", "out_time_us=99000000"]
  have htold : exactSeconds? "out_time_us=99000000" = some 99 := by
    rw [exactSeconds?, show told? "out_time_us=99000000" = some 99000000 from rfl]
    norm_num
  have hlast : (99 : Rat) ∈
      ["out_time_us=2000000", "out_time_ms=-1", "out_time_us=99000000"].filterMap exactSeconds? :=
    List.mem_filterMap.2 ⟨_, by simp, htold⟩
  refine ⟨htotal, le_antisymm (hle 10 rfl) (hupper (.inr ⟨99, hlast, ?_⟩))⟩
  norm_num [upTo]

end Montage.Progress
