import Montage.Number
import Montage.Proofs.Decimal.Double

/-!
# Whole numbers that are doubles

A whole number of less than 1024 bits has a nearest double that is finite (`isFinite_ofInt`).
It is rounded at most once, and rounding brings the exponent to the one that its format asks
for, or to the next if the mantissa is rounded up to a power of two
(`roundWithAccuracy_spec`).  A mantissa that has enough bits keeps them all in this, so that a
positive whole number is rounded to a positive double or to an infinity (`toRat?_ofInt_pos`).
-/

namespace Montage.Decimal

open Float.Model Float.Model.UnpackedFloat

/-- What is packed with an exponent in range is no infinity. -/
theorem isFinite_pack (s : Sign) {m : Nat} {e : Int} (hm : 0 < m) (he : e ≤ 971) :
    (Float.Model.pack (.finite s m e hm)).unpack.isFinite = true := by
  have hfits : ¬ 2 ^ 11 ≤ (e + 1075).toNat + 1 := by
    change ¬ 2048 ≤ _
    omega
  -- Neither exponent that is packed has all its bits.
  have hfinite (exponent : BitVec 11) (mantissa : BitVec 52) (hexponent : exponent ≠ -1#11) :
      (UnpackedFloat.unpack Format.binary64
        (packComponents Format.binary64 s exponent mantissa)).isFinite = true := by
    unfold UnpackedFloat.unpack
    simp only [unpackMantissa_packComponents, unpackExponent_packComponents]
    rw [if_neg hexponent]
    split
    · split <;> rfl
    · rfl
  change (UnpackedFloat.unpack Format.binary64 (UnpackedFloat.pack Format.binary64 _)).isFinite = _
  unfold UnpackedFloat.pack
  simp only [biased_eq]
  rw [if_neg hfits]
  split
  · refine hfinite _ _ fun hall => ?_
    rw [← BitVec.toNat_inj, BitVec.toNat_ofNat, Nat.mod_eq_of_lt (by omega)] at hall
    change _ = 2047 at hall
    omega
  · exact hfinite _ _ (by decide)

theorem mantissa_shift (em : ExtendedMantissa) (n : Nat) :
    (em >>> n).mantissa = em.mantissa / 2 ^ n := by
  change (n.repeat ExtendedMantissa.shiftRightOne em).mantissa = _
  induction n with
  | zero => simp [Nat.repeat]
  | succ n ih =>
      change (n.repeat ExtendedMantissa.shiftRightOne em).mantissa / 2 = _
      rw [ih, Nat.div_div_eq_div_mul, pow_succ]

theorem mantissa_ofMantissaAndAccuracy (m : Nat) (accuracy : Accuracy) :
    (ExtendedMantissa.ofMantissaAndAccuracy m accuracy).mantissa = m := by
  rcases accuracy with _ | (_ | _ | _) <;> rfl

theorem roundedMantissa_le (em : ExtendedMantissa) : em.roundedMantissa ≤ em.mantissa + 1 := by
  rcases em with ⟨m, _ | _, _ | _⟩
  · exact Nat.le_succ m
  · exact Nat.le_succ m
  · change m + m % 2 ≤ m + 1
    omega
  · exact le_refl (m + 1)

theorem le_roundedMantissa (em : ExtendedMantissa) : em.mantissa ≤ em.roundedMantissa := by
  rcases em with ⟨m, _ | _, _ | _⟩
  · exact le_refl m
  · exact le_refl m
  · exact Nat.le_add_right m _
  · exact Nat.le_succ m

/-- Shifting to the exponent that the format asks for leaves at most 53 bits. -/
theorem shift_bounds (m : Nat) (e : Int) (accuracy : Accuracy) :
    let shifted := shiftToTargetExponent Format.binary64 m e accuracy
    shifted.1.mantissa < 2 ^ 53 ∧ shifted.2 = max e (max (m.log2 + 1 + e - 53) (-1074)) := by
  have htarget : Format.binary64.targetExponent (totalExponent m e) =
      max (m.log2 + 1 + e - 53) (-1074) := rfl
  simp only [shiftToTargetExponent, shiftToExponent, mantissa_shift,
    mantissa_ofMantissaAndAccuracy, htarget]
  refine ⟨?_, by omega⟩
  generalize hk : (max ((m.log2 : Int) + 1 + e - 53) (-1074) - e).toNat = k
  rw [Nat.div_lt_iff_lt_mul (Nat.two_pow_pos k), ← pow_add]
  exact Nat.lt_of_lt_of_le Nat.lt_log2_self (Nat.pow_le_pow_right (by decide) (by omega))

/-- Shifting to the exponent that the format asks for leaves all 53 bits of a mantissa that has
them, unless the exponent would be below the least. -/
theorem shift_full {m : Nat} {e : Int} (accuracy : Accuracy) (hm : 52 ≤ m.log2)
    (he : -1074 ≤ m.log2 + 1 + e - 53) :
    2 ^ 52 ≤ (shiftToTargetExponent Format.binary64 m e accuracy).1.mantissa := by
  have htarget : Format.binary64.targetExponent (totalExponent m e) =
      max (m.log2 + 1 + e - 53) (-1074) := rfl
  have hplaces : (max ((m.log2 : Int) + 1 + e - 53) (-1074) - e).toNat = m.log2 - 52 := by omega
  have hpositive : m ≠ 0 := by
    rintro rfl
    exact absurd hm (by decide)
  simp only [shiftToTargetExponent, shiftToExponent, mantissa_shift,
    mantissa_ofMantissaAndAccuracy, htarget, hplaces]
  rw [Nat.le_div_iff_mul_le (Nat.two_pow_pos _), ← pow_add, Nat.add_sub_cancel' hm]
  exact Nat.log2_self_le hpositive

/-- What rounding makes of a mantissa: at most 53 bits, and all of them if there were so many, with
the exponent that the format asks for or the next. -/
theorem roundWithAccuracy_spec (s : Sign) (m : Nat) (e : Int) (accuracy : Accuracy) :
    let target := max e (max (m.log2 + 1 + e - 53) (-1074))
    ∃ (mantissa : Nat) (exponent : Int),
      roundWithAccuracy Format.binary64 s m e accuracy =
        (if h : mantissa = 0 then .zero s
          else .finite s mantissa exponent (Nat.pos_of_ne_zero h)) ∧
      mantissa < 2 ^ 53 ∧ target ≤ exponent ∧ exponent ≤ target + 1 ∧
      (52 ≤ m.log2 → -1074 ≤ (m.log2 : Int) + 1 + e - 53 → 2 ^ 52 ≤ mantissa) := by
  intro target
  obtain ⟨hsmall, hexponent⟩ := shift_bounds m e accuracy
  have hfull := shift_full (m := m) (e := e) accuracy
  rw [roundWithAccuracy]
  generalize shiftToTargetExponent Format.binary64 m e accuracy = shifted at hsmall hexponent hfull
  rcases shifted with ⟨em, exponent⟩
  simp only at hsmall hexponent hfull ⊢
  -- Rounding up fills one more bit at most, so the second shift is by one at most.
  have hrounded := roundedMantissa_le em
  have hlog : em.roundedMantissa.log2 ≤ 53 := by
    by_cases hzero : em.roundedMantissa = 0
    · rw [hzero]
      decide
    · exact Nat.le_of_lt_succ ((Nat.log2_lt hzero).2 (by omega))
  obtain ⟨hlast, hfinal⟩ := shift_bounds em.roundedMantissa exponent .exact
  have hkept := shift_full (m := em.roundedMantissa) (e := exponent) .exact
  generalize shiftToTargetExponent Format.binary64 em.roundedMantissa exponent .exact = last
    at hlast hfinal hkept
  rcases last with ⟨mantissa, final⟩
  simp only at hlast hfinal hkept ⊢
  refine ⟨mantissa.mantissa, final, rfl, hlast, by omega, by omega, fun hm he => ?_⟩
  -- All bits of the shifted mantissa are left by rounding, and then by the second shift.
  have hbits : 2 ^ 52 ≤ em.roundedMantissa := (hfull hm he).trans (le_roundedMantissa em)
  have hlow : 52 ≤ em.roundedMantissa.log2 := (Nat.le_log2 (by omega)).2 hbits
  exact hkept hlow (by omega)

theorem unpack_one :
    (Float.exactlyRepresentablePowersOfTen[0]).toModel.unpack =
      .finite .positive 4503599627370496 (-52) (by decide) := rfl

/-- A whole number of at most 53 bits in canonical form: it is shifted until all bits are
used. -/
theorem canonical_shifted {n : Nat} (hpos : 0 < n) (hsmall : n < 2 ^ 53) :
    Canonical (n <<< (52 - n.log2)) (-((52 - n.log2 : Nat) : Int)) := by
  have hlog : n.log2 ≤ 52 := Nat.le_of_lt_succ ((Nat.log2_lt (by omega)).2 hsmall)
  have hlow : 2 ^ n.log2 ≤ n := Nat.log2_self_le (by omega)
  have hhigh : n < 2 ^ (n.log2 + 1) := Nat.lt_log2_self
  have hpower : (0 : Nat) < 2 ^ (52 - n.log2) := Nat.two_pow_pos _
  have hfull : 2 ^ n.log2 * 2 ^ (52 - n.log2) = 4503599627370496 := by
    rw [← pow_add, Nat.add_sub_cancel' hlog]
    rfl
  have htop : 2 ^ (n.log2 + 1) * 2 ^ (52 - n.log2) = 9007199254740992 := by
    rw [pow_succ, Nat.mul_right_comm, hfull]
  rw [Nat.shiftLeft_eq]
  refine ⟨Nat.mul_pos hpos hpower, ?_, by omega, by omega, .inl ?_⟩
  · rw [← htop]
    exact Nat.mul_lt_mul_of_pos_right hhigh hpower
  · rw [← hfull]
    exact Nat.mul_le_mul_right _ hlow

/-- A whole number of at most 53 bits is read into a double as it is. -/
theorem unpack_ofUInt64 {n : Nat} (hpos : 0 < n) (hsmall : n < 2 ^ 53) :
    n.toUInt64.toFloat.toModel.unpack = .finite .positive (n <<< (52 - n.log2))
      (-((52 - n.log2 : Nat) : Int)) (canonical_shifted hpos hsmall).pos := by
  have hcanonical := canonical_shifted hpos hsmall
  have hlog : n.log2 ≤ 52 := Nat.le_of_lt_succ ((Nat.log2_lt (by omega)).2 hsmall)
  have hnat : n.toUInt64.toNat = n := by
    change n % 2 ^ 64 = n
    omega
  have htarget : (0 - Format.binary64.targetExponent (totalExponent n 0)).toNat = 52 - n.log2 := by
    rw [targetExponent_eq, totalExponent]
    omega
  have hround : UnpackedFloat.round Format.binary64 .positive n 0 =
      .finite .positive (n <<< (52 - n.log2)) (-((52 - n.log2 : Nat) : Int)) hcanonical.pos := by
    simp only [UnpackedFloat.round, decreaseExponent, htarget]
    rw [zero_sub]
    exact round_self .positive hcanonical
  have hnormalize : UnpackedFloat.ofUInt64 Format.binary64 n.toUInt64 =
      UnpackedFloat.round Format.binary64 .positive n 0 := by
    have hcompare : compare (n : Int) 0 = .gt := by
      rw [Int.compare_eq_gt]
      omega
    rw [UnpackedFloat.ofUInt64, UnpackedFloat.ofNat, UnpackedFloat.ofInt, hnat,
      UnpackedFloat.normalize, hcompare]
    rfl
  change (Float.Model.pack (UnpackedFloat.ofUInt64 Format.binary64 n.toUInt64)).unpack = _
  rw [hnormalize, hround]
  exact unpack_pack .positive hcanonical

/-- The product of doubles is the rounded product of what they unpack to. -/
theorem unpack_mul (x y : Float) :
    (x * y).toModel.unpack =
      (Float.Model.pack
        (UnpackedFloat.mul Format.binary64 x.toModel.unpack y.toModel.unpack)).unpack := rfl

/-- A whole number of at most 53 bits is multiplied by one. -/
theorem ofNat_short {n : Nat} (h : n < 2 ^ 53) :
    Float.ofNat n = n.toUInt64.toFloat * Float.exactlyRepresentablePowersOfTen[0] := by
  change Float.ofScientific n false 0 = _
  rw [Float.ofScientific, dif_pos ⟨h, by decide⟩, if_neg Bool.false_ne_true]

/-- A longer one is rounded. -/
theorem ofNat_long {n : Nat} (h : ¬ n < 2 ^ 53) :
    Float.ofNat n = Float.ofModel (Float.Model.pack
      (roundWithAccuracy Format.binary64 .positive (n <<< 53 * 1) (-53) .exact)) := by
  have hscaled : UnpackedFloat.ofScientific Format.binary64 n 0 =
      roundWithAccuracy Format.binary64 .positive (n <<< 53 * 1) (-53) .exact := by
    have hpos : n ≠ 0 := by omega
    rw [UnpackedFloat.ofScientific, dif_neg hpos, if_neg (by decide), if_neg, if_pos (le_refl 0)]
    · rfl
    · change ¬ (0 : Int) < -(2048 + n.log2)
      omega
  change Float.ofScientific n false 0 = _
  rw [Float.ofScientific, dif_neg fun hshort => h hshort.1, if_neg Bool.false_ne_true, ← hscaled]
  rfl

theorem log2_shiftLeft {n : Nat} (hpos : 0 < n) (k : Nat) : (n <<< k).log2 = n.log2 + k := by
  induction k with
  | zero => rfl
  | succ k ih =>
      have hshifted : n <<< k ≠ 0 := by
        rw [Nat.shiftLeft_eq]
        exact (Nat.mul_pos hpos (Nat.two_pow_pos k)).ne'
      rw [Nat.shiftLeft_succ, Nat.log2_two_mul hshifted, ih]
      omega

/-- A positive whole number becomes a double by a single rounding of a mantissa with bits to
spare. -/
theorem ofNat_rounded {n : Nat} (hpos : 0 < n) :
    ∃ (m : Nat) (e : Int),
      (Float.ofNat n).toModel.unpack =
        (Float.Model.pack (roundWithAccuracy Format.binary64 .positive m e .exact)).unpack ∧
      52 ≤ m.log2 ∧ m.log2 + e = n.log2 ∧ e ≤ 0 := by
  by_cases hshort : n < 2 ^ 53
  · have hcanonical := canonical_shifted hpos hshort
    have hproduct : n <<< (52 - n.log2) * 4503599627370496 = n <<< (52 - n.log2) <<< 52 :=
      (Nat.shiftLeft_eq _ 52).symm
    have hlog : (n <<< (52 - n.log2) * 4503599627370496).log2 = n.log2 + (52 - n.log2) + 52 := by
      rw [hproduct, log2_shiftLeft hcanonical.pos, log2_shiftLeft hpos]
    refine ⟨n <<< (52 - n.log2) * 4503599627370496, -((52 - n.log2 : Nat) : Int) + -52, ?_,
      by omega, by omega, by omega⟩
    rw [ofNat_short hshort, unpack_mul, unpack_ofUInt64 hpos hshort, unpack_one]
    rfl
  · have hlog : (n <<< 53 * 1).log2 = n.log2 + 53 := by
      rw [Nat.mul_one, log2_shiftLeft hpos]
    refine ⟨n <<< 53 * 1, -53, ?_, by omega, by omega, by omega⟩
    rw [ofNat_long hshort]

/-- What is packed with an exponent out of range is an infinity. -/
theorem unpack_pack_infinity (s : Sign) {m : Nat} {e : Int} (hm : 0 < m) (he : 971 < e) :
    (Float.Model.pack (.finite s m e hm)).unpack = .infinity s := by
  have hexceeds : 2 ^ 11 ≤ (e + 1075).toNat + 1 := by
    change 2048 ≤ _
    omega
  change UnpackedFloat.unpack Format.binary64 (UnpackedFloat.pack Format.binary64 _) = _
  unfold UnpackedFloat.pack
  simp only [biased_eq]
  rw [if_pos hexceeds]
  cases s <;> rfl

theorem not_isFinite_pack (s : Sign) {m : Nat} {e : Int} (hm : 0 < m) (he : 971 < e) :
    (Float.Model.pack (.finite s m e hm)).unpack.isFinite = false := by
  rw [unpack_pack_infinity s hm he]
  rfl

/-- No double is near a whole number of more than 1024 bits. -/
theorem not_isFinite_ofNat {n : Nat} (h : 1024 ≤ n.log2) : (Float.ofNat n).isFinite = false := by
  have hpos : 0 < n := by
    refine Nat.pos_of_ne_zero ?_
    rintro rfl
    exact absurd h (by decide)
  obtain ⟨m, e, hrounded, hm, hlog, -⟩ := ofNat_rounded hpos
  obtain ⟨mantissa, exponent, hround, -, hlow, -, hbits⟩ :=
    roundWithAccuracy_spec .positive m e .exact
  have hfull := hbits hm (by omega)
  have hmantissa : 0 < mantissa := Nat.lt_of_lt_of_le (by decide) hfull
  change (Float.ofNat n).toModel.unpack.isFinite = false
  rw [hrounded, hround, dif_neg hmantissa.ne']
  exact not_isFinite_pack .positive hmantissa (by omega)

/-- A change of sign does not make a double finite. -/
theorem not_isFinite_neg {x : Float} (h : x.isFinite = false) : x.neg.isFinite = false := by
  change x.toModel.unpack.isFinite = false at h
  change (Float.Model.pack x.toModel.unpack.neg).unpack.isFinite = false
  cases hunpack : x.toModel.unpack with
  | notANumber => rfl
  | infinity s => cases s <;> rfl
  | zero s | finite s m e hm =>
      rw [hunpack] at h
      cases h

/-- **No double is near a whole number of more than 1024 bits.** -/
theorem not_isFinite_ofInt {n : Int} (h : 1024 ≤ n.natAbs.log2) :
    (Float.ofInt n).isFinite = false := by
  cases n with
  | ofNat n => exact not_isFinite_ofNat h
  | negSucc n => exact not_isFinite_neg (not_isFinite_ofNat h)

/-- A mantissa with bits to spare is not rounded below its highest bit. -/
theorem highest_bit_le_of_rounded {x : Float} {m : Nat} {e : Int}
    (hx : x.toModel.unpack =
      (Float.Model.pack (roundWithAccuracy Format.binary64 .positive m e .exact)).unpack)
    (hm : 52 ≤ m.log2) (he : -1022 ≤ (m.log2 : Int) + e) :
    x.toModel.unpack = .infinity .positive ∨
      ∃ q, toRat? x = some q ∧ (2 : Rat) ^ ((m.log2 : Int) + e) ≤ q := by
  obtain ⟨mantissa, exponent, hround, hsmall, hlow, -, hbits⟩ :=
    roundWithAccuracy_spec .positive m e .exact
  have hfull := hbits hm (by omega)
  have hpos : 0 < mantissa := Nat.lt_of_lt_of_le (by decide) hfull
  rw [hround, dif_neg hpos.ne'] at hx
  by_cases hhigh : exponent ≤ 971
  · have hcanonical : Canonical mantissa exponent := ⟨hpos, hsmall, by omega, hhigh, .inl hfull⟩
    rw [unpack_pack .positive hcanonical] at hx
    have hmantissa : (2 : Rat) ^ (52 : Int) ≤ mantissa := by exact_mod_cast hfull
    have hpower : (2 : Rat) ^ ((m.log2 : Int) + e - 52) ≤ 2 ^ exponent :=
      zpow_le_zpow_right₀ (by norm_num) (by omega)
    refine .inr ⟨_, toRat?_of_unpack hx, ?_⟩
    calc (2 : Rat) ^ ((m.log2 : Int) + e) = 2 ^ (52 : Int) * 2 ^ ((m.log2 : Int) + e - 52) := by
          rw [← zpow_add₀ (by norm_num)]
          congr 1
          omega
      _ ≤ mantissa * 2 ^ exponent := mul_le_mul hmantissa hpower (by positivity) (by positivity)
  · rw [unpack_pack_infinity .positive hpos (by omega)] at hx
    exact .inl hx

/-- The nearest double of a positive whole number is not below its highest bit, if it is finite. -/
theorem highest_bit_le_ofInt {n : Int} (hn : 0 < n) (hfinite : (Float.ofInt n).isFinite = true) :
    ∃ q, toRat? (Float.ofInt n) = some q ∧ (2 : Rat) ^ n.natAbs.log2 ≤ q := by
  obtain ⟨n, rfl⟩ := Int.eq_ofNat_of_zero_le hn.le
  obtain ⟨m, e, hrounded, hm, hlog, -⟩ := ofNat_rounded (n := n) (by omega)
  rcases highest_bit_le_of_rounded (x := Float.ofNat n) hrounded hm (by omega) with
    hinfinite | ⟨q, hq, hbit⟩
  · change (Float.ofNat n).toModel.unpack.isFinite = true at hfinite
    rw [hinfinite] at hfinite
    cases hfinite
  · rw [hlog, zpow_natCast] at hbit
    exact ⟨q, hq, hbit⟩

/-- **The nearest double of a positive whole number is positive**, if it is finite. -/
theorem toRat?_ofInt_pos {n : Int} (hn : 0 < n) (hfinite : (Float.ofInt n).isFinite = true) :
    ∃ q, toRat? (Float.ofInt n) = some q ∧ 0 < q := by
  obtain ⟨q, hq, hbit⟩ := highest_bit_le_ofInt hn hfinite
  exact ⟨q, hq, hbit.trans_lt' (by positivity)⟩

end Montage.Decimal
