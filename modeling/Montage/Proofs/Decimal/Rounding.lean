import Montage.Proofs.Decimal.Whole

/-!
# Where rounding leaves the range

Rounding looks at a mantissa, at the bit behind it, and at whether anything follows that bit.
Whether a further bit is needed depends on the first two only: a mantissa of all ones is odd, so
that it is rounded up as soon as the bit is set.  Read as one number (`halves`) they are shifted
by a plain division, and the result is finite up to a bound on that number (`isFinite_round`).
-/

namespace Montage.Decimal

open Float.Model Float.Model.UnpackedFloat

/-- A mantissa with the bit behind it, in halves of its last place. -/
def halves (em : ExtendedMantissa) : Nat := 2 * em.mantissa + em.roundBit.toNat

theorem halves_exact (m : Nat) : halves (.ofMantissaAndAccuracy m .exact) = 2 * m := rfl

/-- Shifting divides the halves. -/
theorem halves_shift (em : ExtendedMantissa) (k : Nat) : halves (em >>> k) = halves em / 2 ^ k := by
  change halves (k.repeat ExtendedMantissa.shiftRightOne em) = _
  induction k with
  | zero => simp [Nat.repeat]
  | succ k ih =>
      rw [pow_succ, ← Nat.div_div_eq_div_mul, ← ih, Nat.repeat]
      generalize k.repeat ExtendedMantissa.shiftRightOne em = shifted
      rcases shifted with ⟨m, round, sticky⟩
      have hbit : (m % 2 != 0).toNat = m % 2 := by
        rcases Nat.mod_two_eq_zero_or_one m with h | h <;> rw [h] <;> rfl
      have hround : round.toNat < 2 := Bool.toNat_lt round
      change 2 * (m / 2) + (m % 2 != 0).toNat = (2 * m + round.toNat) / 2
      omega

/-- Shifting to the exponent that the format asks for divides the halves. -/
theorem halves_shiftToTarget (m : Nat) (e : Int) (accuracy : Accuracy) :
    ∃ k : Nat, (shiftToTargetExponent Format.binary64 m e accuracy).2 = e + k ∧
      halves (shiftToTargetExponent Format.binary64 m e accuracy).1 =
        halves (.ofMantissaAndAccuracy m accuracy) / 2 ^ k :=
  ⟨_, rfl, halves_shift _ _⟩

theorem mantissa_eq_halves (em : ExtendedMantissa) : em.mantissa = halves em / 2 := by
  have hround : em.roundBit.toNat < 2 := Bool.toNat_lt _
  rw [halves]
  omega

/-- A mantissa is rounded up to a further bit exactly from the last of its halves on. -/
theorem roundedMantissa_lt_iff {em : ExtendedMantissa} (h : em.mantissa < 2 ^ 53) :
    em.roundedMantissa < 2 ^ 53 ↔ halves em < 2 ^ 54 - 1 := by
  rcases em with ⟨m, _ | _, _ | _⟩
  · change m < 2 ^ 53 ↔ 2 * m + 0 < 2 ^ 54 - 1
    omega
  · change m < 2 ^ 53 ↔ 2 * m + 0 < 2 ^ 54 - 1
    omega
  · -- A tie, in which a mantissa of all ones is odd.
    change m + m % 2 < 2 ^ 53 ↔ 2 * m + 1 < 2 ^ 54 - 1
    change m < 2 ^ 53 at h
    omega
  · change m + 1 < 2 ^ 53 ↔ 2 * m + 1 < 2 ^ 54 - 1
    omega

theorem log2_lt_of_lt {m : Nat} (h : m < 2 ^ 53) : m.log2 < 53 := by
  by_cases hzero : m = 0
  · rw [hzero]
    decide
  · exact (Nat.log2_lt hzero).2 h

/-- The shift after rounding moves a mantissa that was rounded up to a further bit, and no
other. -/
theorem shift_rounded {m : Nat} {e : Int} (hm : m ≤ 2 ^ 53) (he : -1074 ≤ e) :
    ∃ em, shiftToTargetExponent Format.binary64 m e .exact =
        (em, if m < 2 ^ 53 then e else e + 1) ∧
      em.mantissa = if m < 2 ^ 53 then m else 2 ^ 52 := by
  have htarget : Format.binary64.targetExponent (totalExponent m e) =
      max (m.log2 + 1 + e - 53) (-1074) := rfl
  rw [shiftToTargetExponent, htarget, shiftToExponent]
  refine ⟨_, Prod.ext rfl ?_, ?_⟩
  all_goals simp only [mantissa_shift, mantissa_ofMantissaAndAccuracy]
  all_goals rcases hm.lt_or_eq with hlt | rfl
  -- All bits are kept unless there is one too many.
  · have hlog : m.log2 < 53 := log2_lt_of_lt hlt
    rw [if_pos hlt]
    omega
  · rw [if_neg (lt_irrefl _), Nat.log2_two_pow]
    omega
  · have hlog : m.log2 < 53 := log2_lt_of_lt hlt
    have hnone : (max ((m.log2 : Int) + 1 + e - 53) (-1074) - e).toNat = 0 := by omega
    rw [if_pos hlt, hnone, pow_zero, Nat.div_one]
  · have hone : (max (((53 : Nat) : Int) + 1 + e - 53) (-1074) - e).toNat = 1 := by omega
    rw [if_neg (lt_irrefl _), Nat.log2_two_pow, hone]
    rfl

section

variable {m : Nat} {e exponent : Int} {accuracy : Accuracy} {em : ExtendedMantissa}

/-- What rounding gives: the rounded mantissa, or a power of two with the next exponent. -/
theorem round_eq (s : Sign)
    (hshift : shiftToTargetExponent Format.binary64 m e accuracy = (em, exponent)) :
    roundWithAccuracy Format.binary64 s m e accuracy =
      if em.roundedMantissa < 2 ^ 53 then
        if h : em.roundedMantissa = 0 then .zero s
        else .finite s em.roundedMantissa exponent (Nat.pos_of_ne_zero h)
      else .finite s (2 ^ 52) (exponent + 1) (by decide) := by
  obtain ⟨hsmall, hexponent⟩ := shift_bounds m e accuracy
  rw [hshift] at hsmall hexponent
  simp only at hsmall hexponent
  have hrounded : em.roundedMantissa ≤ 2 ^ 53 := (roundedMantissa_le em).trans hsmall
  obtain ⟨last, hlast, hmantissa⟩ := shift_rounded (e := exponent) hrounded (by omega)
  rw [roundWithAccuracy]
  simp only [hshift, hlast, hmantissa]
  split
  · rfl
  · rw [dif_neg (by decide)]

/-- Rounding stays in the range up to the last half of the greatest mantissa. -/
theorem isFinite_round (s : Sign)
    (hshift : shiftToTargetExponent Format.binary64 m e accuracy = (em, exponent))
    (h : exponent ≤ 970 ∨ exponent = 971 ∧ halves em < 2 ^ 54 - 1) :
    (Float.Model.pack (roundWithAccuracy Format.binary64 s m e accuracy)).unpack.isFinite =
      true := by
  have hsmall := (shift_bounds m e accuracy).1
  simp only [hshift] at hsmall
  rw [← roundedMantissa_lt_iff hsmall] at h
  rw [round_eq s hshift]
  split
  · split
    · cases s <;> rfl
    · exact isFinite_pack s _ (by omega)
  · exact isFinite_pack s _ (by omega)

end

end Montage.Decimal
