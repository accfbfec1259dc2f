import Montage.Proofs.Decimal.Order
import Montage.Proofs.Decimal.Rounding

/-!
# Where a quotient or a difference leaves the range

The quotient of positive doubles is never less than zero and never not-a-number.  It is an
infinity exactly if the exact quotient reaches the number from which on the greatest double is
not the nearest (`quotient_cases`), and it is not rounded to zero as long as the exact quotient
reaches the least double.  A difference of doubles that are not negative is always finite
(`isFinite_sub`).
-/

namespace Montage.Decimal

open Float.Model Float.Model.UnpackedFloat

/-- The number from which on rounding gives an infinity: one half of the last place above the
greatest double. -/
def overflowFrom : Rat := (2 ^ 54 - 1) * 2 ^ (970 : Int)

/-- No finite double is beyond the range. -/
theorem lt_overflowFrom {x : Float} {p : Rat} (hx : toRat? x = some p) : p < overflowFrom := by
  have hlimit : (0 : Rat) < overflowFrom := by
    unfold overflowFrom
    positivity
  rcases unpack_cases hx with ⟨s, -, rfl⟩ | ⟨m, e, h, ⟨-, rfl⟩ | ⟨-, rfl⟩⟩
  · exact hlimit
  · have hsmall : (m : Rat) ≤ 9007199254740991 := by exact_mod_cast Nat.le_of_lt_succ h.small
    have hpower : (2 : Rat) ^ e ≤ 2 ^ (971 : Int) := zpow_le_zpow_right₀ (by norm_num) h.high
    have hdouble : (2 : Rat) ^ (971 : Int) = 2 ^ (970 : Int) * 2 := by
      rw [← zpow_add_one₀ (by norm_num)]
      norm_num
    have hunit : (0 : Rat) < 2 ^ (970 : Int) := zpow_pos (by norm_num) _
    calc (m : Rat) * 2 ^ e ≤ 9007199254740991 * 2 ^ (971 : Int) :=
          mul_le_mul hsmall hpower (by positivity) (by norm_num)
      _ < overflowFrom := by
          rw [hdouble, overflowFrom]
          generalize (2 : Rat) ^ (970 : Int) = unit at hunit
          linarith
  · exact (neg_neg_of_pos h.value_pos).trans hlimit

theorem overflowFrom_le : overflowFrom ≤ 2 ^ (1074 : Int) := by
  have hpower : (2 : Rat) ^ (1074 : Int) = 2 ^ 104 * 2 ^ (970 : Int) := by
    rw [← zpow_natCast, ← zpow_add₀ (by norm_num)]
    norm_num
  rw [hpower, overflowFrom]
  exact mul_le_mul_of_nonneg_right (by norm_num) (by positivity)

section Quotient

/-- The mantissa of a quotient and what is known of the rest give the halves of the quotient. -/
theorem halves_quotient (a : Nat) {n : Nat} (hn : 0 < n) :
    halves (.ofMantissaAndAccuracy (a / n) (accuracyOfFraction (a % n) n)) = 2 * a / n := by
  have ha : n * (a / n) + a % n = a := Nat.div_add_mod a n
  have hrest : a % n < n := Nat.mod_lt a hn
  have hhalves (bit : Nat) (hlow : n * bit ≤ 2 * (a % n)) (hhigh : 2 * (a % n) < n * (bit + 1)) :
      2 * a / n = 2 * (a / n) + bit := by
    refine Nat.div_eq_of_lt_le ?_ ?_ <;> nlinarith
  unfold accuracyOfFraction
  split
  · next hexact =>
      rw [hhalves 0 (by omega) (by omega)]
      rfl
  · rcases lt_trichotomy (2 * (a % n)) n with h | h | h
    · rw [compare_lt_iff_lt.2 h, hhalves 0 (by omega) (by omega)]
      rfl
    · rw [compare_eq_iff_eq.2 h, hhalves 1 (by omega) (by omega)]
      rfl
    · rw [compare_gt_iff_gt.2 h, hhalves 1 (by omega) (by omega)]
      rfl

/-- A quotient has at most one bit less than the lengths of its parts differ by. -/
theorem log2_quotient {a n : Nat} (ha : 0 < a) (hn : 0 < n) :
    (a.log2 : Int) - n.log2 - 1 ≤ (a / n).log2 := by
  rcases lt_or_ge a.log2 (n.log2 + 1) with hsmall | hlarge
  · omega
  · have hpower : 2 ^ (a.log2 - n.log2 - 1) ≤ a / n := by
      rw [Nat.le_div_iff_mul_le hn]
      calc 2 ^ (a.log2 - n.log2 - 1) * n
          ≤ 2 ^ (a.log2 - n.log2 - 1) * 2 ^ (n.log2 + 1) :=
            Nat.mul_le_mul_left _ Nat.lt_log2_self.le
        _ = 2 ^ a.log2 := by rw [← pow_add]; congr 1; omega
        _ ≤ a := Nat.log2_self_le ha.ne'
    have hquotient : a / n ≠ 0 := Nat.pos_iff_ne_zero.1 ((Nat.two_pow_pos _).trans_le hpower)
    have hlog := (Nat.le_log2 hquotient).2 hpower
    omega

/-- How the quotient of two mantissas is rounded. -/
structure Rounds (m n : Nat) (e f : Int) (em : ExtendedMantissa) (exponent : Int) : Prop where
  low : -1074 ≤ exponent
  small : em.mantissa < 2 ^ 53
  /-- The halves are those of the exact quotient. -/
  lt_iff : ∀ bound : Nat, halves em < bound ↔
    ((m : Rat) * 2 ^ e) / (n * 2 ^ f) < bound * 2 ^ (exponent - 1)
  /-- Bits are unused only under the least exponent. -/
  full : -1074 < exponent → 2 ^ 53 ≤ halves em

/-- The halves of a shifted quotient are those of the exact quotient. -/
theorem halves_lt_iff {m n : Nat} {e f t : Int} {s k : Nat} (hn : 0 < n) (hs : e - f = t + s)
    (bound : Nat) :
    2 * (m <<< s) / n / 2 ^ k < bound ↔
      ((m : Rat) * 2 ^ e) / (n * 2 ^ f) < bound * 2 ^ (t + k - 1) := by
  have hnpos : (0 : Rat) < n := by exact_mod_cast hn
  have hpower : (0 : Rat) < 2 ^ (f + t - 1) := zpow_pos (by norm_num) _
  have hleft : (m : Rat) * 2 ^ e = (2 * m * 2 ^ s : Nat) * 2 ^ (f + t - 1) := by
    have he : e = (s : Int) + 1 + (f + t - 1) := by omega
    rw [he, zpow_add₀ (by norm_num), zpow_add_one₀ (by norm_num), zpow_natCast]
    push_cast
    ring
  have hright : (bound : Rat) * 2 ^ (t + k - 1) * (n * 2 ^ f) =
      (bound * (n * 2 ^ k) : Nat) * 2 ^ (f + t - 1) := by
    have hk : t + k - 1 + f = (k : Int) + (f + t - 1) := by omega
    calc (bound : Rat) * 2 ^ (t + k - 1) * (n * 2 ^ f)
        = bound * n * 2 ^ (t + k - 1 + f) := by rw [zpow_add₀ (by norm_num)]; ring
      _ = _ := by rw [hk, zpow_add₀ (by norm_num), zpow_natCast]; push_cast; ring
  rw [Nat.div_div_eq_div_mul, Nat.div_lt_iff_lt_mul (by positivity), Nat.shiftLeft_eq,
    div_lt_iff₀ (by positivity), hright, hleft, mul_lt_mul_iff_left₀ hpower, Nat.cast_lt,
    mul_assoc]

/-- A quotient of mantissas is rounded from its halves. -/
theorem exists_rounds {m n : Nat} (hm : 0 < m) (hn : 0 < n) (e f : Int) :
    ∃ quotient t accuracy em exponent,
      UnpackedFloat.div Format.binary64 (.finite .positive m e hm) (.finite .positive n f hn) =
        roundWithAccuracy Format.binary64 .positive quotient t accuracy ∧
      shiftToTargetExponent Format.binary64 quotient t accuracy = (em, exponent) ∧
      Rounds m n e f em exponent := by
  -- The dividend is shifted by `s` places to the exponent `t`.
  generalize ht : min (e - f) (Format.binary64.targetExponent
    (totalExponent m e - totalExponent n f)) = t
  generalize hs : (e - f - t).toNat = s
  have htarget : Format.binary64.targetExponent (totalExponent m e - totalExponent n f) =
      max (((m.log2 : Int) + 1 + e) - (n.log2 + 1 + f) - 53) (-1074) := rfl
  rw [htarget] at ht
  generalize haccuracy : accuracyOfFraction ((m <<< s) % n) n = accuracy
  have hshifted : 0 < m <<< s := by
    rw [Nat.shiftLeft_eq]
    positivity
  have hlog := log2_quotient hshifted hn
  rw [log2_shiftLeft hm] at hlog
  obtain ⟨hsmall, hexponent⟩ := shift_bounds ((m <<< s) / n) t accuracy
  obtain ⟨k, hk, hhalves⟩ := halves_shiftToTarget ((m <<< s) / n) t accuracy
  have hfull := shift_full (m := (m <<< s) / n) (e := t) accuracy
  generalize hshift : shiftToTargetExponent Format.binary64 ((m <<< s) / n) t accuracy = shifted
    at hsmall hexponent hk hhalves hfull
  refine ⟨(m <<< s) / n, t, accuracy, shifted.1, shifted.2, ?_, hshift, by omega, hsmall,
    fun bound => ?_, fun hlow => ?_⟩
  · simp only [UnpackedFloat.div, divCore, htarget, ht, hs, haccuracy]
    rfl
  · rw [hhalves, hk, ← haccuracy, halves_quotient _ hn]
    exact halves_lt_iff hn (by omega) bound
  · have := hfull (by omega) (by omega)
    rw [halves]
    omega

theorem exists_pos_of_canonical {x : Float} {m : Nat} {e : Int} (h : Canonical m e)
    (hx : x.toModel.unpack = (Float.Model.pack (.finite .positive m e h.pos)).unpack) :
    ∃ r, toRat? x = some r ∧ 0 < r := by
  rw [unpack_pack .positive h] at hx
  exact ⟨_, toRat?_of_unpack hx, h.value_pos⟩

section

variable {m n : Nat} {e f exponent : Int} {em : ExtendedMantissa}

/-- The exact quotient is in the range exactly if what is rounded is. -/
theorem Rounds.lt_overflowFrom_iff (h : Rounds m n e f em exponent) :
    ((m : Rat) * 2 ^ e) / (n * 2 ^ f) < overflowFrom ↔
      exponent ≤ 970 ∨ exponent = 971 ∧ halves em < 2 ^ 54 - 1 := by
  have hround : em.roundBit.toNat < 2 := Bool.toNat_lt _
  have hsmall := h.small
  have hpower : (0 : Rat) < 2 ^ (969 : Int) := zpow_pos (by norm_num) _
  have hlimit : overflowFrom = (2 ^ 54 - 1) * (2 ^ (969 : Int) * 2) := by
    rw [overflowFrom, ← zpow_add_one₀ (by norm_num)]
    norm_num
  rcases lt_trichotomy exponent 971 with hlow | rfl | hhigh
  · -- At least one place is left.
    refine iff_of_true ?_ (.inl (by omega))
    have hscale : (2 : Rat) ^ (exponent - 1) ≤ 2 ^ (969 : Int) :=
      zpow_le_zpow_right₀ (by norm_num) (by omega)
    have hbelow := (h.lt_iff (2 ^ 54)).1 (by rw [halves]; omega)
    push_cast at hbelow
    rw [hlimit]
    generalize (2 : Rat) ^ (969 : Int) = unit at hpower hscale ⊢
    linarith
  · have hbound := h.lt_iff (2 ^ 54 - 1)
    have hlast : ((2 ^ 54 - 1 : Nat) : Rat) * 2 ^ ((971 : Int) - 1) = overflowFrom := by
      rw [overflowFrom]
      norm_num
    rw [hlast] at hbound
    rw [← hbound]
    omega
  · refine iff_of_false (not_lt.2 ?_) (by omega)
    have hscale : (2 : Rat) ^ (969 : Int) * 2 * 2 ≤ 2 ^ (exponent - 1) := by
      rw [← zpow_add_one₀ (by norm_num), ← zpow_add_one₀ (by norm_num)]
      exact zpow_le_zpow_right₀ (by norm_num) (by omega)
    have habove := not_lt.1 ((h.lt_iff (2 ^ 53)).not.1 (not_lt.2 (h.full (by omega))))
    push_cast at habove
    rw [hlimit]
    generalize (2 : Rat) ^ (969 : Int) = unit at hpower hscale ⊢
    linarith

/-- A quotient that reaches the least double is not rounded to zero. -/
theorem Rounds.rounded_pos (h : Rounds m n e f em exponent)
    (hleast : 2 ^ (-1074 : Int) ≤ ((m : Rat) * 2 ^ e) / (n * 2 ^ f)) : 0 < em.roundedMantissa := by
  have hhalves : 2 ≤ halves em := by
    rcases h.low.eq_or_lt with hlow | hlow
    · have hunit : ((2 : Nat) : Rat) * 2 ^ (exponent - 1) = 2 ^ (-1074 : Int) := by
        rw [← hlow, zpow_sub_one₀ (by norm_num), Nat.cast_ofNat]
        ring
      refine not_lt.1 ((h.lt_iff 2).not.2 (not_lt.2 ?_))
      rwa [hunit]
    · have := h.full hlow
      omega
  have hmantissa := mantissa_eq_halves em
  have hrounded := le_roundedMantissa em
  omega

/-- A mantissa in the range that is rounded to 53 bits is in canonical form, unless it is zero. -/
theorem Rounds.canonical (h : Rounds m n e f em exponent) (hhigh : exponent ≤ 971)
    (hpos : 0 < em.roundedMantissa) (hfits : em.roundedMantissa < 2 ^ 53) :
    Canonical em.roundedMantissa exponent := by
  have hmantissa := mantissa_eq_halves em
  have hrounded := le_roundedMantissa em
  refine ⟨hpos, hfits, h.low, hhigh, ?_⟩
  rcases h.low.eq_or_lt with hleast | habove
  · exact .inr hleast.symm
  · have := h.full habove
    exact .inl (by omega)

variable {quotient : Nat} {t : Int} {accuracy : Accuracy}

/-- Out of the range a quotient is rounded to an infinity. -/
theorem Rounds.unpack_of_not_lt (h : Rounds m n e f em exponent)
    (hshift : shiftToTargetExponent Format.binary64 quotient t accuracy = (em, exponent))
    (hlarge : ¬ ((m : Rat) * 2 ^ e) / (n * 2 ^ f) < overflowFrom) :
    (Float.Model.pack
      (roundWithAccuracy Format.binary64 .positive quotient t accuracy)).unpack =
        .infinity .positive := by
  have hrange := h.lt_overflowFrom_iff.not.1 hlarge
  have hbits := roundedMantissa_lt_iff h.small
  have hmantissa := mantissa_eq_halves em
  have hrounded := le_roundedMantissa em
  rw [round_eq .positive hshift]
  split
  · have hfull := h.full (by omega)
    rw [dif_neg (by omega)]
    exact unpack_pack_infinity .positive _ (by omega)
  · exact unpack_pack_infinity .positive _ (by omega)

/-- In the range a quotient is rounded to a number that is not negative. -/
theorem Rounds.exists_nonneg (h : Rounds m n e f em exponent)
    (hshift : shiftToTargetExponent Format.binary64 quotient t accuracy = (em, exponent))
    (hlt : ((m : Rat) * 2 ^ e) / (n * 2 ^ f) < overflowFrom) {x : Float}
    (hx : x.toModel.unpack = (Float.Model.pack
      (roundWithAccuracy Format.binary64 .positive quotient t accuracy)).unpack) :
    ∃ r, toRat? x = some r ∧ 0 ≤ r ∧
      (2 ^ (-1074 : Int) ≤ ((m : Rat) * 2 ^ e) / (n * 2 ^ f) → 0 < r) := by
  have hrange := h.lt_overflowFrom_iff.1 hlt
  have hbits := roundedMantissa_lt_iff h.small
  have hlow := h.low
  rw [round_eq .positive hshift] at hx
  split at hx
  · next hfits =>
      by_cases hzero : em.roundedMantissa = 0
      · rw [dif_pos hzero] at hx
        refine ⟨0, toRat?_of_unpack_zero hx, le_refl _, fun hleast => ?_⟩
        exact absurd (h.rounded_pos hleast) (by omega)
      · rw [dif_neg hzero] at hx
        have hcanonical := h.canonical (by omega) (Nat.pos_of_ne_zero hzero) hfits
        obtain ⟨r, hr, hpos⟩ := exists_pos_of_canonical hcanonical hx
        exact ⟨r, hr, hpos.le, fun _ => hpos⟩
  · have hcanonical : Canonical (2 ^ 52) (exponent + 1) :=
      ⟨by decide, by decide, by omega, by omega, .inl (by decide)⟩
    obtain ⟨r, hr, hpos⟩ := exists_pos_of_canonical hcanonical hx
    exact ⟨r, hr, hpos.le, fun _ => hpos⟩

end

/-- **What becomes of the quotient of positive doubles.**  It is an infinity exactly if the exact
quotient is out of the range, and otherwise a number that is not negative, and positive as long as
the exact quotient reaches the least double. -/
theorem quotient_cases {x y : Float} {p q : Rat} (hx : toRat? x = some p) (hy : toRat? y = some q)
    (hp : 0 < p) (hq : 0 < q) :
    ((x / y).toModel.unpack = .infinity .positive ∧ ¬ p / q < overflowFrom) ∨
      (p / q < overflowFrom ∧ ∃ r, toRat? (x / y) = some r ∧ 0 ≤ r ∧
        (2 ^ (-1074 : Int) ≤ p / q → 0 < r)) := by
  obtain ⟨m, e, h, hxu, rfl⟩ := exists_canonical hx hp
  obtain ⟨n, f, h', hyu, rfl⟩ := exists_canonical hy hq
  obtain ⟨quotient, t, accuracy, em, exponent, hdiv, hshift, hrounds⟩ :=
    exists_rounds h.pos h'.pos e f
  have hunpack : (x / y).toModel.unpack = (Float.Model.pack
      (roundWithAccuracy Format.binary64 .positive quotient t accuracy)).unpack := by
    rw [unpack_div, hxu, hyu, hdiv]
  by_cases hlt : ((m : Rat) * 2 ^ e) / (n * 2 ^ f) < overflowFrom
  · exact .inr ⟨hlt, hrounds.exists_nonneg hshift hlt hunpack⟩
  · exact .inl ⟨hunpack.trans (hrounds.unpack_of_not_lt hshift hlt), hlt⟩

end Quotient

section Difference

/-- What is at most the greatest double is rounded to a finite double. -/
theorem isFinite_roundWithAccuracy_of_le (s : Sign) {m : Nat} {e : Int} (he : e ≤ 971)
    (hm : m ≤ (2 ^ 53 - 1) * 2 ^ (971 - e).toNat) :
    (Float.Model.pack (roundWithAccuracy Format.binary64 s m e .exact)).unpack.isFinite = true := by
  obtain ⟨-, hexponent⟩ := shift_bounds m e .exact
  obtain ⟨k, hk, hhalves⟩ := halves_shiftToTarget m e .exact
  generalize hshift : shiftToTargetExponent Format.binary64 m e .exact = shifted
    at hexponent hk hhalves
  have hlog : (m.log2 : Int) < 53 + (971 - e) := by
    by_cases hzero : m = 0
    · rw [hzero, Nat.log2_zero]
      omega
    · have hlt : m < 2 ^ (53 + (971 - e).toNat) := by
        refine hm.trans_lt ?_
        rw [pow_add]
        exact Nat.mul_lt_mul_of_pos_right (by decide) (Nat.two_pow_pos _)
      have := (Nat.log2_lt hzero).2 hlt
      omega
  obtain ⟨em, exponent⟩ := shifted
  simp only at hexponent hk hhalves
  refine isFinite_round s hshift ?_
  rcases (show exponent ≤ 971 by omega).lt_or_eq with hlow | hhigh
  · exact .inl (by omega)
  · -- All places that are shifted out are needed for the bound.
    have hplaces : k = (971 - e).toNat := by omega
    refine .inr ⟨hhigh, ?_⟩
    rw [hhalves, halves_exact, hplaces, Nat.div_lt_iff_lt_mul (Nat.two_pow_pos _)]
    have hunit := Nat.two_pow_pos (971 - e).toNat
    generalize 2 ^ (971 - e).toNat = unit at hm hunit ⊢
    omega

theorem isFinite_round_of_le (s : Sign) {m : Nat} {e : Int} (he : e ≤ 971)
    (hm : m ≤ (2 ^ 53 - 1) * 2 ^ (971 - e).toNat) :
    (Float.Model.pack (UnpackedFloat.round Format.binary64 s m e)).unpack.isFinite = true := by
  simp only [UnpackedFloat.round, decreaseExponent]
  generalize (e - Format.binary64.targetExponent (totalExponent m e)).toNat = k
  refine isFinite_roundWithAccuracy_of_le s (by omega) ?_
  have hplaces : (971 - (e - (k : Int))).toNat = (971 - e).toNat + k := by omega
  rw [hplaces, Nat.shiftLeft_eq, pow_add, ← Nat.mul_assoc]
  exact Nat.mul_le_mul_right _ hm

theorem unpack_sub (x y : Float) :
    (x - y).toModel.unpack =
      (Float.Model.pack
        (UnpackedFloat.sub Format.binary64 x.toModel.unpack y.toModel.unpack)).unpack := rfl

/-- The mantissa that belongs to a smaller exponent is at most the one of the greatest double. -/
theorem Canonical.shifted_le {m : Nat} {e f : Int} (h : Canonical m e) :
    m <<< (e - f).toNat ≤ (2 ^ 53 - 1) * 2 ^ (971 - f).toNat := by
  have hhigh := h.high
  have hsmall := h.small
  rw [Nat.shiftLeft_eq]
  exact Nat.mul_le_mul (by omega) (Nat.pow_le_pow_right (by decide) (by omega))

/-- What a finite double unpacks to that is not negative. -/
theorem unpack_of_nonneg {x : Float} {p : Rat} (hx : toRat? x = some p) (hp : 0 ≤ p) :
    (∃ s, x.toModel.unpack = .zero s) ∨
      ∃ m e, ∃ h : Canonical m e, x.toModel.unpack = .finite .positive m e h.pos := by
  rcases unpack_cases hx with ⟨s, hxu, -⟩ | ⟨m, e, h, ⟨hxu, -⟩ | ⟨-, rfl⟩⟩
  · exact .inl ⟨s, hxu⟩
  · exact .inr ⟨m, e, h, hxu⟩
  · exact absurd h.value_pos (not_lt.2 (neg_nonneg.1 hp))

/-- **A difference of doubles that are not negative is finite.** -/
theorem isFinite_sub {x y : Float} {p q : Rat} (hx : toRat? x = some p) (hy : toRat? y = some q)
    (hp : 0 ≤ p) (hq : 0 ≤ q) : (x - y).isFinite = true := by
  change (x - y).toModel.unpack.isFinite = true
  rw [unpack_sub]
  rcases unpack_of_nonneg hx hp with ⟨s, hxu⟩ | ⟨m, e, h, hxu⟩ <;>
    rcases unpack_of_nonneg hy hq with ⟨t, hyu⟩ | ⟨n, f, h', hyu⟩ <;> rw [hxu, hyu]
  · cases s <;> cases t <;> rfl
  · exact isFinite_pack _ _ h'.high
  · exact isFinite_pack _ _ h.high
  · -- The difference of the mantissas is at most the larger of them.
    have hm := h.shifted_le (f := min e f)
    have hn := h'.shifted_le (f := min e f)
    have he : min e f ≤ 971 := (min_le_left e f).trans h.high
    simp only [UnpackedFloat.sub, decreaseExponent, Sign.apply, UnpackedFloat.normalize]
    generalize m <<< (e - min e f).toNat = a at hm ⊢
    generalize n <<< (f - min e f).toNat = b at hn ⊢
    split
    · exact isFinite_round_of_le _ he (by omega)
    · rfl
    · exact isFinite_round_of_le _ he (by omega)

end Difference

end Montage.Decimal
