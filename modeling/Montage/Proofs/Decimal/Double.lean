import Mathlib
import Montage.Decimal.Binary

/-!
# Doubles and the numbers they stand for

The fields of a double are what its logical model unpacks (`ofFloat_eq_view`), and a
positive finite double is a mantissa and an exponent in a canonical form.  Halving above
two and doubling below one half keep that form with the other exponent, so both are exact.
-/

namespace Montage.Decimal

open Float.Model

/-- The mantissa and the exponent of a positive double: all bits are used, or the exponent
is the least. -/
structure Canonical (mantissa : Nat) (exponent : Int) : Prop where
  pos : 0 < mantissa
  small : mantissa < 9007199254740992
  low : -1074 ≤ exponent
  high : exponent ≤ 971
  full : 4503599627370496 ≤ mantissa ∨ exponent = -1074

/-- What an unpacked double stands for. -/
def view : UnpackedFloat → Binary
  | .notANumber => .nan
  | .infinity s => .infinite (s == .negative)
  | .zero s => .finite (s == .negative) 0 (-1074)
  | .finite s m e _ => .finite (s == .negative) m e

/-- The three fields of the bits of a double. -/
theorem toNat_fields (b : BitVec Format.binary64.numBits) :
    (UnpackedFloat.unpackMantissa b).toNat = b.toNat % Nat.pow 2 52 ∧
      (UnpackedFloat.unpackExponent b).toNat = b.toNat / Nat.pow 2 52 % Nat.pow 2 11 ∧
      (UnpackedFloat.unpackSign b).toNat = b.toNat / Nat.pow 2 63 := by
  have hb : b.toNat < 2 ^ 64 := b.isLt
  refine ⟨?_, ?_, ?_⟩
  · simp [UnpackedFloat.unpackMantissa]
  · simp [UnpackedFloat.unpackExponent, Nat.shiftRight_eq_div_pow]
  · simp [UnpackedFloat.unpackSign, Nat.shiftRight_eq_div_pow]
    omega

theorem toNat_implicit (v : BitVec 52) : (1#1 ++ v).toNat = v.toNat + Nat.pow 2 52 := by
  rw [BitVec.toNat_append, ← Nat.shiftLeft_add_eq_or_of_lt v.isLt]
  simp [Nat.shiftLeft_eq]
  omega

theorem negative_ofBitVec (b : BitVec 1) :
    (UnpackedFloat.Sign.ofBitVec b == .negative) = (b.toNat == 1) := by
  obtain rfl | rfl : b = 0#1 ∨ b = 1#1 := by
    have := b.isLt
    rcases (by omega : b.toNat = 0 ∨ b.toNat = 1) with h | h
    · exact .inl (BitVec.eq_of_toNat_eq h)
    · exact .inr (BitVec.eq_of_toNat_eq h)
  · rfl
  · rfl

/-- The fields of a double are those that its logical model unpacks. -/
theorem ofFloat_eq_view (x : Float) : Binary.ofFloat x = view x.toModel.unpack := by
  let b : BitVec Format.binary64.numBits := x.toModel.toBits.toBitVec
  obtain ⟨hmantissa, hexponent, hsign⟩ := toNat_fields b
  have hbits : x.toBits.toNat = b.toNat := rfl
  have hnegative : (b.toNat / Nat.pow 2 63 == 1) =
      (UnpackedFloat.Sign.ofBitVec (UnpackedFloat.unpackSign b) == .negative) := by
    rw [negative_ofBitVec, hsign]
  have hspecial : UnpackedFloat.unpackExponent b = -1#_ ↔
      (UnpackedFloat.unpackExponent b).toNat = 2047 := by
    rw [← BitVec.toNat_inj]
    rfl
  have hleast : UnpackedFloat.unpackExponent b = 0#_ ↔
      (UnpackedFloat.unpackExponent b).toNat = 0 := by
    rw [← BitVec.toNat_inj]
    rfl
  have hzero : UnpackedFloat.unpackMantissa b = 0#_ ↔
      (UnpackedFloat.unpackMantissa b).toNat = 0 := by
    rw [← BitVec.toNat_inj]
    rfl
  unfold Binary.ofFloat
  simp only [hbits, hnegative, ← hmantissa, ← hexponent]
  change _ = view (UnpackedFloat.unpack Format.binary64 b)
  unfold UnpackedFloat.unpack
  simp only [hspecial, hleast, hzero, beq_iff_eq]
  -- All bits of the exponent set: an infinity, or no number if the mantissa is not zero.
  by_cases hexp : (UnpackedFloat.unpackExponent b).toNat = 2047
  · rw [if_pos hexp, if_pos hexp]
    by_cases hman : (UnpackedFloat.unpackMantissa b).toNat = 0
    · rw [if_pos hman, if_pos hman]
      rfl
    · rw [if_neg hman, if_neg hman]
      rfl
  · rw [if_neg hexp, if_neg hexp]
    -- No bit of the exponent set: zero or a subnormal double, with no implied bit.
    by_cases hlow : (UnpackedFloat.unpackExponent b).toNat = 0
    · rw [if_pos hlow, if_pos hlow]
      by_cases hman : (UnpackedFloat.unpackMantissa b).toNat = 0
      · rw [dif_pos hman, hman]
        rfl
      · rw [dif_neg hman, hlow]
        rfl
    · rw [if_neg hlow, if_neg hlow]
      change _ = Binary.finite _ _ _
      rw [toNat_implicit]
      rfl

/-- What is unpacked is in canonical form. -/
theorem canonical_of_unpack {b : BitVec Format.binary64.numBits} {s : UnpackedFloat.Sign}
    {m : Nat} {e : Int} {h : 0 < m}
    (hb : UnpackedFloat.unpack Format.binary64 b = .finite s m e h) : Canonical m e := by
  have hmantissa : (UnpackedFloat.unpackMantissa b).toNat < 4503599627370496 :=
    (UnpackedFloat.unpackMantissa b).isLt
  have hexponent : (UnpackedFloat.unpackExponent b).toNat < 2048 :=
    (UnpackedFloat.unpackExponent b).isLt
  unfold UnpackedFloat.unpack at hb
  simp only at hb
  split at hb
  · split at hb <;> cases hb
  · next hspecial =>
      rw [← BitVec.toNat_inj] at hspecial
      change ¬ _ = 2047 at hspecial
      split at hb
      · next hleast =>
          split at hb
          · cases hb
          · -- A subnormal double has the least exponent.
            cases hb
            refine ⟨h, by omega, ?_, ?_, .inr ?_⟩
            all_goals
              rw [hleast]
              decide
      · next hleast =>
          rw [← BitVec.toNat_inj] at hleast
          change ¬ _ = 0 at hleast
          cases hb
          -- The implied bit fills the mantissa of a normal double.
          have hfull := toNat_implicit (UnpackedFloat.unpackMantissa b)
          change _ = _ + 4503599627370496 at hfull
          have hbias : ((Format.binary64.exponentBias : Nat) : Int) +
              Format.binary64.mantissaBitsWithoutImplicit = 1075 := rfl
          refine ⟨h, by omega, ?_, ?_, .inl (by omega)⟩
          all_goals
            rw [hbias]
            omega

theorem log2_of_full {m : Nat} (hfull : 4503599627370496 ≤ m) (hsmall : m < 9007199254740992) :
    m.log2 = 52 := by
  rw [Nat.log2_eq_iff (by omega)]
  exact ⟨hfull, hsmall⟩

theorem log2_of_small {m : Nat} (hpos : 0 < m) (hsmall : m < 4503599627370496) : m.log2 < 52 :=
  (Nat.log2_lt (by omega)).2 hsmall

theorem unpackSign_packComponents (s : UnpackedFloat.Sign) (e : BitVec 11) (m : BitVec 52) :
    UnpackedFloat.Sign.ofBitVec (@UnpackedFloat.unpackSign Format.binary64
      (UnpackedFloat.packComponents Format.binary64 s e m)) = s := by
  have hsign : @UnpackedFloat.unpackSign Format.binary64
      (UnpackedFloat.packComponents Format.binary64 s e m) = s.toBitVec := by
    ext i hi
    obtain rfl : i = 0 := by omega
    simp only [UnpackedFloat.unpackSign, UnpackedFloat.packComponents, BitVec.extractLsb,
      BitVec.getElem_cast, BitVec.getElem_extractLsb']
    change (s.toBitVec ++ e ++ m : BitVec (1 + 11 + 52)).getLsbD 63 = _
    rw [BitVec.getLsbD_append, BitVec.getLsbD_append]
    rfl
  rw [hsign]
  cases s <;> rfl

/-- The exponent that is packed. -/
theorem biased_eq (e : Int) :
    e + Format.binary64.exponentBias + ((52 : Nat) : Int) = e + 1075 := by
  change e + 1023 + 52 = _
  omega

/-- A subnormal double survives packing: all bits of its exponent are zero. -/
theorem unpack_pack_subnormal (s : UnpackedFloat.Sign) {m : Nat} (hpos : 0 < m)
    (hsmall : m < 4503599627370496) :
    (Float.Model.pack (.finite s m (-1074) hpos)).unpack = .finite s m (-1074) hpos := by
  have hlog := log2_of_small hpos hsmall
  have hbits : ¬ m.log2 + 1 = Format.binary64.mantissaBits := by
    change ¬ _ = 53
    omega
  have hfits : ¬ 2 ^ 11 ≤ ((-1074 : Int) + 1075).toNat + 1 := by decide
  have hmantissa : (BitVec.ofNat 52 m).toNat = m := by
    rw [BitVec.toNat_ofNat, Nat.mod_eq_of_lt hsmall]
  have hzero : BitVec.ofNat 52 m ≠ 0#52 := by
    intro hm
    rw [← BitVec.toNat_inj, hmantissa] at hm
    change m = 0 at hm
    omega
  change UnpackedFloat.unpack Format.binary64 (UnpackedFloat.pack Format.binary64 _) = _
  unfold UnpackedFloat.pack
  simp only [biased_eq]
  rw [if_neg hfits, if_neg hbits]
  unfold UnpackedFloat.unpack
  simp only [UnpackedFloat.unpackMantissa_packComponents,
    UnpackedFloat.unpackExponent_packComponents, unpackSign_packComponents]
  rw [if_neg (by decide), if_pos trivial, dif_neg hzero]
  simp only [hmantissa]
  rfl

/-- A normal double survives packing: the first bit of its mantissa is implied. -/
theorem unpack_pack_normal (s : UnpackedFloat.Sign) {m : Nat} {e : Int} (hpos : 0 < m)
    (hfull : 4503599627370496 ≤ m) (hsmall : m < 9007199254740992) (hlow : -1074 ≤ e)
    (hhigh : e ≤ 971) :
    (Float.Model.pack (.finite s m e hpos)).unpack = .finite s m e hpos := by
  have hbits : m.log2 + 1 = Format.binary64.mantissaBits := by
    rw [log2_of_full hfull hsmall]
    rfl
  have hfits : ¬ 2 ^ 11 ≤ (e + 1075).toNat + 1 := by
    change ¬ 2048 ≤ _
    omega
  have hexponent : (BitVec.ofNat 11 (e + 1075).toNat).toNat = (e + 1075).toNat := by
    rw [BitVec.toNat_ofNat, Nat.mod_eq_of_lt (by omega)]
  -- The packed exponent is neither of the two that mean something else.
  have hspecial : BitVec.ofNat 11 (e + 1075).toNat ≠ -1#11 := by
    intro he
    rw [← BitVec.toNat_inj, hexponent] at he
    change _ = 2047 at he
    omega
  have hleast : BitVec.ofNat 11 (e + 1075).toNat ≠ 0#11 := by
    intro he
    rw [← BitVec.toNat_inj, hexponent] at he
    change _ = 0 at he
    omega
  have hmantissa : (1#1 ++ BitVec.ofNat 52 m).toNat = m := by
    rw [toNat_implicit, BitVec.toNat_ofNat]
    change m % 4503599627370496 + 4503599627370496 = m
    omega
  change UnpackedFloat.unpack Format.binary64 (UnpackedFloat.pack Format.binary64 _) = _
  unfold UnpackedFloat.pack
  simp only [biased_eq]
  rw [if_neg hfits, if_pos hbits]
  unfold UnpackedFloat.unpack
  simp only [UnpackedFloat.unpackMantissa_packComponents,
    UnpackedFloat.unpackExponent_packComponents, unpackSign_packComponents]
  rw [if_neg hspecial, if_neg hleast]
  simp only [hmantissa, hexponent]
  congr 1
  change ((e + 1075).toNat : Int) - (1023 + 52) = e
  omega

/-- A double in canonical form survives packing. -/
theorem unpack_pack (s : UnpackedFloat.Sign) {m : Nat} {e : Int} (h : Canonical m e) :
    (Float.Model.pack (.finite s m e h.pos)).unpack = .finite s m e h.pos := by
  rcases lt_or_ge m 4503599627370496 with hsubnormal | hnormal
  · obtain rfl : e = -1074 := h.full.resolve_left (by omega)
    exact unpack_pack_subnormal s h.pos hsubnormal
  · exact unpack_pack_normal s h.pos hnormal h.small h.low h.high

/-- The exponent that the format asks for. -/
theorem targetExponent_eq (t : Int) :
    Format.binary64.targetExponent t = max (t - 53) (-1074) := rfl

/-- A double in canonical form has the exponent that its format asks for. -/
theorem Canonical.targetExponent {m : Nat} {e : Int} (h : Canonical m e) :
    Format.binary64.targetExponent (totalExponent m e) = e := by
  have hlow := h.low
  rw [targetExponent_eq, totalExponent]
  rcases lt_or_ge m 4503599627370496 with hsubnormal | hnormal
  · have hlog := log2_of_small h.pos hsubnormal
    have hleast := h.full.resolve_left (by omega)
    omega
  · have hlog := log2_of_full hnormal h.small
    omega

theorem totalExponent_twice {m : Nat} (hm : 0 < m) (e : Int) :
    totalExponent (2 * m) (e - 1) = totalExponent m e := by
  rw [totalExponent, totalExponent, Nat.log2_two_mul (by omega)]
  push_cast
  omega

open UnpackedFloat in
theorem shift_self {m : Nat} {e : Int} (h : Canonical m e) :
    shiftToTargetExponent Format.binary64 m e .exact = (⟨m, false, false⟩, e) := by
  have hnone : (e - e).toNat = 0 := by omega
  rw [shiftToTargetExponent, h.targetExponent, shiftToExponent, hnone]
  simp only [Int.natCast_zero, Int.add_zero]
  rfl

open UnpackedFloat in
theorem shift_twice {m : Nat} {e : Int} (h : Canonical m e) :
    shiftToTargetExponent Format.binary64 (2 * m) (e - 1) .exact = (⟨m, false, false⟩, e) := by
  have hone : (e - (e - 1)).toNat = 1 := by omega
  have hback : e - 1 + ((1 : Nat) : Int) = e := by omega
  have hshift :
      ExtendedMantissa.ofMantissaAndAccuracy (2 * m) .exact >>> 1 = ⟨m, false, false⟩ := by
    change (⟨2 * m / 2, 2 * m % 2 != 0, false || false⟩ : ExtendedMantissa) = _
    simp
  rw [shiftToTargetExponent, totalExponent_twice h.pos, h.targetExponent, shiftToExponent, hone,
    hshift, hback]

open UnpackedFloat in
/-- Rounding leaves a double in canonical form as it is. -/
theorem round_self (s : Sign) {m : Nat} {e : Int} (h : Canonical m e) :
    roundWithAccuracy Format.binary64 s m e .exact = .finite s m e h.pos := by
  have hrounded : (⟨m, false, false⟩ : ExtendedMantissa).roundedMantissa = m := rfl
  unfold roundWithAccuracy
  simp only [shift_self h, hrounded]
  rw [dif_neg (Nat.pos_iff_ne_zero.1 h.pos)]

open UnpackedFloat in
/-- Rounding drops a bit that is zero. -/
theorem round_twice (s : Sign) {m : Nat} {e : Int} (h : Canonical m e) :
    roundWithAccuracy Format.binary64 s (2 * m) (e - 1) .exact = .finite s m e h.pos := by
  have hrounded : (⟨m, false, false⟩ : ExtendedMantissa).roundedMantissa = m := rfl
  unfold roundWithAccuracy
  simp only [shift_twice h, hrounded, shift_self h]
  rw [dif_neg (Nat.pos_iff_ne_zero.1 h.pos)]

open UnpackedFloat in
/-- Dividing by a power of two only shifts the mantissa. -/
theorem div_pow (s : Sign) {m : Nat} {e k : Int} (hm : 0 < m)
    (htarget : Format.binary64.targetExponent
      (totalExponent m e - totalExponent 4503599627370496 k) = e - k - 53) :
    UnpackedFloat.div Format.binary64 (.finite s m e hm)
        (.finite .positive 4503599627370496 k (by decide)) =
      roundWithAccuracy Format.binary64 (s / .positive) (2 * m) (e - k - 53) .exact := by
  -- The dividend is shifted by 53 places, of which the divisor takes 52 back.
  have hmin : min (e - k) (e - k - 53) = e - k - 53 := by omega
  have hshift : (e - k - (e - k - 53)).toNat = 53 := by omega
  have hquotient : m <<< 53 / 4503599627370496 = 2 * m := by
    rw [Nat.shiftLeft_eq]
    omega
  have hrest : m <<< 53 % 4503599627370496 = 0 := by
    rw [Nat.shiftLeft_eq]
    omega
  simp only [UnpackedFloat.div, divCore, htarget, hmin, hshift, hquotient, hrest]
  rfl

theorem div_ratio (m : Nat) (e : Int) :
    ((ratio m e).1 : Rat) / (ratio m e).2 = (m : Rat) * 2 ^ e := by
  unfold ratio
  split
  · next he =>
      have hpower : (2 : Rat) ^ e = 2 ^ e.toNat := by
        rw [← zpow_natCast, Int.toNat_of_nonneg he]
      simp [hpower]
  · next he =>
      have hpower : (2 : Rat) ^ e = (2 ^ (-e).toNat)⁻¹ := by
        rw [← zpow_natCast, ← zpow_neg, Int.toNat_of_nonneg (by omega), neg_neg]
      simp [hpower, div_eq_mul_inv]

/-- The number that a finite double stands for. -/
theorem toRat?_finite (negative : Bool) (m : Nat) (e : Int) :
    (Binary.finite negative m e).toRat? =
      some (if negative then -((m : Rat) * 2 ^ e) else (m : Rat) * 2 ^ e) := by
  rw [← div_ratio]
  cases negative with
  | false => simp [Binary.toRat?, Rat.mkRat_eq_div]
  | true => simp [Binary.toRat?, Rat.mkRat_eq_div, neg_div]

/-- A positive number that a double stands for is one in canonical form. -/
theorem exists_canonical {x : Float} {q : Rat} (hx : toRat? x = some q) (hq : 0 < q) :
    ∃ m e, ∃ h : Canonical m e, x.toModel.unpack = .finite .positive m e h.pos ∧
      q = (m : Rat) * 2 ^ e := by
  rw [toRat?, ofFloat_eq_view] at hx
  cases hunpack : x.toModel.unpack with
  | notANumber =>
      rw [hunpack] at hx
      cases hx
  | infinity s =>
      rw [hunpack] at hx
      cases hx
  | zero s =>
      rw [hunpack, view, toRat?_finite, Nat.cast_zero, zero_mul, neg_zero, ite_self] at hx
      cases hx
      exact absurd hq (lt_irrefl 0)
  | finite s m e hm =>
      rw [hunpack, view, toRat?_finite] at hx
      cases s with
      | positive =>
          cases hx
          exact ⟨m, e, canonical_of_unpack hunpack, rfl, rfl⟩
      | negative =>
          cases hx
          have hpower : (0 : Rat) < 2 ^ e := zpow_pos (by norm_num) e
          have hpositive : 0 < (m : Rat) * 2 ^ e := mul_pos (by exact_mod_cast hm) hpower
          exact absurd hq (not_lt.2 (neg_nonpos.2 hpositive.le))

/-- The number of a double is known from its canonical form. -/
theorem toRat?_of_unpack {x : Float} {m : Nat} {e : Int} {hm : 0 < m}
    (hx : x.toModel.unpack = .finite .positive m e hm) : toRat? x = some ((m : Rat) * 2 ^ e) := by
  rw [toRat?, ofFloat_eq_view, hx]
  exact toRat?_finite false m e

/-- Enough doublings bring the number of a double to one, and enough powers of two exceed
it. -/
theorem Canonical.bounds {m : Nat} {e : Int} (h : Canonical m e) {n : Nat} (hn : 1074 ≤ n) :
    1 ≤ (2 : Rat) ^ n * ((m : Rat) * 2 ^ e) ∧ (m : Rat) * 2 ^ e ≤ 2 ^ n := by
  have hlow := h.low
  have hhigh := h.high
  have hone : (1 : Rat) ≤ m := by exact_mod_cast h.pos
  have hsmall : (m : Rat) ≤ 2 ^ (53 : Int) := by
    have hm : (m : Rat) < 9007199254740992 := by exact_mod_cast h.small
    exact hm.le.trans_eq (by norm_num)
  have hpower : (0 : Rat) < 2 ^ e := zpow_pos (by norm_num) e
  have hdoubled : 1 ≤ (2 : Rat) ^ ((n : Int) + e) := one_le_zpow₀ (by norm_num) (by omega)
  have habove : (2 : Rat) ^ (53 + e) ≤ 2 ^ (n : Int) :=
    zpow_le_zpow_right₀ (by norm_num) (by omega)
  rw [zpow_add₀ (by norm_num), zpow_natCast] at hdoubled habove
  constructor
  · calc (1 : Rat) ≤ 2 ^ n * 2 ^ e := hdoubled
      _ ≤ 2 ^ n * ((m : Rat) * 2 ^ e) :=
        mul_le_mul_of_nonneg_left (le_mul_of_one_le_left hpower.le hone) (by positivity)
  · calc (m : Rat) * 2 ^ e ≤ 2 ^ (53 : Int) * 2 ^ e := mul_le_mul_of_nonneg_right hsmall hpower.le
      _ ≤ 2 ^ n := habove

/-- The finite doubles are those that stand for a number. -/
theorem isFinite_iff (x : Float) : x.isFinite = true ↔ ∃ q, toRat? x = some q := by
  have hfinite : x.isFinite = x.toModel.unpack.isFinite := rfl
  rw [hfinite, toRat?, ofFloat_eq_view]
  cases x.toModel.unpack with
  | notANumber | infinity s => exact ⟨fun h => (nomatch h), fun ⟨_, h⟩ => (nomatch h)⟩
  | zero s | finite s m e hm => exact ⟨fun _ => ⟨_, toRat?_finite _ _ _⟩, fun _ => rfl⟩

/-- The whole part is missing exactly if the double is not finite. -/
theorem truncate?_eq_none_iff (x : Float) : truncate? x = none ↔ x.isFinite = false := by
  have hfinite : x.isFinite = x.toModel.unpack.isFinite := rfl
  rw [hfinite, truncate?, ofFloat_eq_view]
  cases x.toModel.unpack with
  | notANumber | infinity s => exact ⟨fun _ => rfl, fun _ => rfl⟩
  | zero s | finite s m e hm => exact ⟨fun h => (nomatch h), fun h => (nomatch h)⟩

/-- No exponent of a double makes a mantissa longer than 1024 bits. -/
theorem ratio_lt {m : Nat} {e : Int} (hm : m < 9007199254740992) (he : e ≤ 971) :
    (ratio m e).1 / (ratio m e).2 < Nat.pow 2 1024 := by
  rw [Nat.pow_eq]
  have hsmall : m < 2 ^ 53 := hm
  unfold ratio
  split
  · have hpower : 2 ^ 53 * 2 ^ e.toNat ≤ 2 ^ 1024 := by
      rw [← Nat.pow_add]
      exact Nat.pow_le_pow_right (by norm_num) (by omega)
    rw [Nat.div_one, Nat.pow_eq]
    calc m * 2 ^ e.toNat < 2 ^ 53 * 2 ^ e.toNat :=
          Nat.mul_lt_mul_of_pos_right hsmall (Nat.two_pow_pos _)
      _ ≤ 2 ^ 1024 := hpower
  · calc m / Nat.pow 2 (-e).toNat ≤ m := Nat.div_le_self _ _
      _ < 2 ^ 53 := hsmall
      _ ≤ 2 ^ 1024 := Nat.pow_le_pow_right (by norm_num) (by norm_num)

/-- The whole part of a double has at most 1024 bits. -/
theorem natAbs_truncate? {x : Float} {n : Int} (h : truncate? x = some n) :
    n.natAbs < Nat.pow 2 1024 := by
  have hfinite {negative : Bool} {m : Nat} {e : Int} (hm : m < 9007199254740992) (he : e ≤ 971)
      (htruncate : (Binary.finite negative m e).truncate? = some n) :
      n.natAbs < Nat.pow 2 1024 := by
    have hquotient : n.natAbs = (ratio m e).1 / (ratio m e).2 := by
      cases negative <;> cases htruncate
      · exact Int.natAbs_natCast _
      · exact (Int.natAbs_neg _).trans (Int.natAbs_natCast _)
    rw [hquotient]
    exact ratio_lt hm he
  rw [truncate?, ofFloat_eq_view] at h
  cases hunpack : x.toModel.unpack with
  | notANumber | infinity s =>
      rw [hunpack] at h
      cases h
  | zero s =>
      rw [hunpack] at h
      exact hfinite (by norm_num) (by norm_num) h
  | finite s m e hm =>
      have hcanonical := canonical_of_unpack hunpack
      rw [hunpack] at h
      exact hfinite hcanonical.small hcanonical.high h

theorem unpack_two :
    (Float.ofInt 2).toModel.unpack = .finite .positive 4503599627370496 (-51) (by decide) := rfl

theorem unpack_half :
    (0.5 : Float).toModel.unpack = .finite .positive 4503599627370496 (-53) (by decide) := rfl

/-- The quotient of doubles is the rounded quotient of what they unpack to. -/
theorem unpack_div (x y : Float) :
    (x / y).toModel.unpack =
      (Float.Model.pack
        (UnpackedFloat.div Format.binary64 x.toModel.unpack y.toModel.unpack)).unpack := rfl

/-- Halving a number above two is exact. -/
theorem toRat?_div_two {x : Float} {q : Rat} (hx : toRat? x = some q) (hq : 2 < q) :
    toRat? (x / Float.ofInt 2) = some (q / 2) := by
  obtain ⟨m, e, h, hunpack, rfl⟩ := exists_canonical hx (by linarith)
  -- A smaller exponent would leave the number below two.
  have he : -51 ≤ e := by
    by_contra hsmall
    have hm : (m : Rat) < 9007199254740992 := by exact_mod_cast h.small
    have hpower : (2 : Rat) ^ e ≤ 2 ^ (-52 : Int) :=
      zpow_le_zpow_right₀ (by norm_num) (by omega)
    have hpos : (0 : Rat) < 2 ^ e := zpow_pos (by norm_num) e
    norm_num at hpower
    nlinarith
  have hnormal : 4503599627370496 ≤ m := h.full.resolve_right (by omega)
  have hhalf : Canonical m (e - 1) :=
    ⟨h.pos, h.small, by omega, by have := h.high; omega, .inl hnormal⟩
  have htarget : Format.binary64.targetExponent
      (totalExponent m e - totalExponent 4503599627370496 (-51)) = e - (-51) - 53 := by
    rw [targetExponent_eq, totalExponent, totalExponent, log2_of_full hnormal h.small,
      log2_of_full (le_refl _) (by norm_num)]
    omega
  have hshifted : e - (-51) - 53 = e - 1 - 1 := by omega
  have hresult : (x / Float.ofInt 2).toModel.unpack = .finite .positive m (e - 1) h.pos := by
    rw [unpack_div, hunpack, unpack_two, div_pow .positive h.pos htarget, hshifted,
      round_twice _ hhalf]
    exact unpack_pack .positive hhalf
  rw [toRat?_of_unpack hresult, zpow_sub_one₀ (by norm_num)]
  congr 1
  ring

/-- Doubling a number below one half is exact. -/
theorem toRat?_div_half {x : Float} {q : Rat} (hx : toRat? x = some q) (hpos : 0 < q)
    (hq : q < 1 / 2) : toRat? (x / 0.5) = some (2 * q) := by
  obtain ⟨m, e, h, hunpack, rfl⟩ := exists_canonical hx hpos
  have hm := h.pos
  have hlow := h.low
  -- A larger exponent would leave the number at one half or above, unless bits are unused.
  have he : e < -53 := by
    by_contra hlarge
    have hnormal : 4503599627370496 ≤ m := h.full.resolve_right (by omega)
    have hcast : (4503599627370496 : Rat) ≤ m := by exact_mod_cast hnormal
    have hpower : (2 : Rat) ^ (-53 : Int) ≤ 2 ^ e := zpow_le_zpow_right₀ (by norm_num) (by omega)
    norm_num at hpower
    nlinarith
  have hshifted : e - (-53) - 53 = e := by omega
  have htotal (hlog : max ((m.log2 : Int) + 1 + e - 53) (-1074) = e) :
      Format.binary64.targetExponent
        (totalExponent m e - totalExponent 4503599627370496 (-53)) = e - (-53) - 53 := by
    rw [targetExponent_eq, totalExponent, totalExponent, log2_of_full (le_refl _) (by norm_num)]
    omega
  have hdiv (hlog : max ((m.log2 : Int) + 1 + e - 53) (-1074) = e) :
      (x / 0.5).toModel.unpack = (Float.Model.pack (UnpackedFloat.roundWithAccuracy
        Format.binary64 .positive (2 * m) e .exact)).unpack := by
    rw [unpack_div, hunpack, unpack_half, div_pow .positive h.pos (htotal hlog), hshifted]
    rfl
  rcases lt_or_ge m 4503599627370496 with hsubnormal | hnormal
  · obtain rfl : e = -1074 := h.full.resolve_left (by omega)
    have hlog := log2_of_small h.pos hsubnormal
    have htwice : Canonical (2 * m) (-1074) :=
      ⟨by omega, by omega, le_refl _, by norm_num, .inr rfl⟩
    have hresult := hdiv (by omega)
    rw [round_self _ htwice, unpack_pack .positive htwice] at hresult
    rw [toRat?_of_unpack hresult, Nat.cast_mul, Nat.cast_ofNat, mul_assoc]
  · have hlog := log2_of_full hnormal h.small
    have hnext : Canonical m (e + 1) := ⟨h.pos, h.small, by omega, by omega, .inl hnormal⟩
    have hresult := hdiv (by omega)
    have hround := round_twice .positive hnext
    rw [add_sub_cancel_right] at hround
    rw [hround, unpack_pack .positive hnext] at hresult
    rw [toRat?_of_unpack hresult, zpow_add_one₀ (by norm_num)]
    congr 1
    ring

end Montage.Decimal
