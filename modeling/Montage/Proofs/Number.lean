import Montage.Proofs.Decimal.Overflow
import Montage.Proofs.Tempo.Endless

/-!
# Numbers in and out of the range of doubles

Positive settings are divided and subtracted as doubles.  What should come to a number `v`
becomes a finite number that is not negative as long as `v` is in the range of doubles, and the
positive infinity otherwise (`Becomes`); it never becomes not-a-number.
-/

namespace Montage

open Decimal

namespace Number

/-- The number is neither an infinity nor not-a-number. -/
def IsFinite (n : Number) : Prop := ∃ q, n.toRat? = some q

/-- The number is the positive infinity. -/
def IsInfinite (n : Number) : Prop := ∃ x, n = .float x ∧ x.toModel.unpack = .infinity .positive

theorem IsInfinite.not_isFinite {n : Number} (h : n.IsInfinite) : ¬ n.IsFinite := by
  obtain ⟨x, rfl, hx⟩ := h
  rintro ⟨q, hq⟩
  cases (toRat?_of_unpack_infinity hx).symm.trans hq

/-- What a number that is not negative becomes as a double: one that is finite and not negative
within the range, and the positive infinity beyond it. -/
inductive Becomes (v : Rat) : Number → Prop
  | finite {x : Float} {r : Rat} (hlt : v < overflowFrom) (hx : Decimal.toRat? x = some r)
    (hr : 0 ≤ r) : Becomes v (.float x)
  | infinite {x : Float} (hle : ¬ v < overflowFrom)
    (hx : x.toModel.unpack = .infinity .positive) : Becomes v (.float x)

variable {v p q : Rat} {n : Number} {x y : Float}

theorem Becomes.isFinite_iff (h : Becomes v n) : n.IsFinite ↔ v < overflowFrom := by
  cases h with
  | finite hlt hx hr => exact iff_of_true ⟨_, hx⟩ hlt
  | infinite hle hx => exact iff_of_false (IsInfinite.not_isFinite ⟨_, rfl, hx⟩) hle

theorem Becomes.finite_or_infinite (h : Becomes v n) : n.IsFinite ∨ n.IsInfinite := by
  cases h with
  | finite hlt hx hr => exact .inl ⟨_, hx⟩
  | infinite hle hx => exact .inr ⟨_, rfl, hx⟩

theorem becomes_self (hx : Decimal.toRat? x = some p) (hp : 0 ≤ p) : Becomes p (.float x) :=
  .finite (lt_overflowFrom hx) hx hp

/-- A quotient of positive doubles. -/
theorem becomes_div (hx : Decimal.toRat? x = some p) (hy : Decimal.toRat? y = some q) (hp : 0 < p)
    (hq : 0 < q) : Becomes (p / q) (div (.float x) (.float y)) := by
  rcases quotient_cases hx hy hp hq with ⟨hunpack, hle⟩ | ⟨hlt, r, hr, hr0, -⟩
  · exact .infinite hle hunpack
  · exact .finite hlt hr hr0

theorem isPositive_of_infinity (hx : x.toModel.unpack = .infinity .positive) :
    Arithmetic.isPositive (Number.float x) = true := by
  have hnone := toRat?_of_unpack_infinity hx
  refine (Tempo.lt_of_none (x := Float.ofInt 0) (.inr hnone)).trans ?_
  rw [hx]
  decide +kernel

theorem isPositive_float (hx : Decimal.toRat? x = some p) :
    Arithmetic.isPositive (Number.float x) = decide (0 < p) :=
  Tempo.lt_float Tempo.toRat?_zero hx

/-- One divided by a positive double exceeds zero, also where it is an infinity: no double is so
large that the quotient would be rounded to zero. -/
theorem isPositive_one_div (hx : Decimal.toRat? x = some q) (hq : 0 < q) :
    Arithmetic.isPositive (div Arithmetic.one (.float x)) = true := by
  have hleast : (2 : Rat) ^ (-1074 : Int) ≤ 1 / q := by
    rw [le_div_iff₀ hq]
    calc (2 : Rat) ^ (-1074 : Int) * q ≤ 2 ^ (-1074 : Int) * 2 ^ (1074 : Int) :=
          mul_le_mul_of_nonneg_left ((lt_overflowFrom hx).le.trans overflowFrom_le) (by positivity)
      _ = 1 := by rw [← zpow_add₀ (by norm_num)]; norm_num
  rcases quotient_cases Tempo.toRat?_one hx one_pos hq with
    ⟨hunpack, -⟩ | ⟨-, r, hr, -, hpos⟩
  · exact isPositive_of_infinity hunpack
  · exact (isPositive_float hr).trans (decide_eq_true (hpos hleast))

end Number

end Montage
