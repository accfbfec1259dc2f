import Montage.Proofs.Decimal.Double

/-!
# The order of doubles

Doubles are compared by sign, then by exponent, then by mantissa.  For finite doubles this is
the order of the numbers that they stand for (`compare_eq`), since a canonical mantissa that is
not full has the least exponent, so that the larger exponent belongs to the larger number.
-/

namespace Montage.Decimal

open Float.Model

/-- Of two numbers in canonical form the one with the larger exponent is larger. -/
theorem Canonical.lt_of_exponent {m n : Nat} {e f : Int} (h : Canonical m e) (h' : Canonical n f)
    (hlt : e < f) : (m : Rat) * 2 ^ e < n * 2 ^ f := by
  have hlow := h.low
  have hfull : (4503599627370496 : Rat) ≤ n := by exact_mod_cast h'.full.resolve_right (by omega)
  have hsmall : (m : Rat) < 9007199254740992 := by exact_mod_cast h.small
  have hpower : (0 : Rat) < 2 ^ e := zpow_pos (by norm_num) e
  calc (m : Rat) * 2 ^ e < 9007199254740992 * 2 ^ e := mul_lt_mul_of_pos_right hsmall hpower
    _ = 4503599627370496 * 2 ^ (e + 1) := by rw [zpow_add_one₀ (by norm_num)]; ring
    _ ≤ n * 2 ^ f := by
      have hnext : (2 : Rat) ^ (e + 1) ≤ 2 ^ f := zpow_le_zpow_right₀ (by norm_num) (by omega)
      exact mul_le_mul hfull hnext (by positivity) (by positivity)

/-- Numbers in canonical form are compared by exponent, then by mantissa. -/
theorem Canonical.compare_eq {m n : Nat} {e f : Int} (h : Canonical m e) (h' : Canonical n f) :
    (compare e f).then (compare m n) = compare ((m : Rat) * 2 ^ e) (n * 2 ^ f) := by
  rcases lt_trichotomy e f with hlt | rfl | hgt
  · rw [compare_lt_iff_lt.2 hlt, compare_lt_iff_lt.2 (h.lt_of_exponent h' hlt)]
    rfl
  · have hpower : (0 : Rat) < 2 ^ e := zpow_pos (by norm_num) e
    rw [compare_eq_iff_eq.2 rfl]
    change compare m n = _
    rcases lt_trichotomy m n with hm | rfl | hm
    · have hvalue := mul_lt_mul_of_pos_right (Nat.cast_lt (α := Rat) |>.2 hm) hpower
      rw [compare_lt_iff_lt.2 hm, compare_lt_iff_lt.2 hvalue]
    · rw [compare_eq_iff_eq.2 rfl, compare_eq_iff_eq.2 rfl]
    · have hvalue := mul_lt_mul_of_pos_right (Nat.cast_lt (α := Rat) |>.2 hm) hpower
      rw [compare_gt_iff_gt.2 hm, compare_gt_iff_gt.2 hvalue]
  · rw [compare_gt_iff_gt.2 hgt, compare_gt_iff_gt.2 (h'.lt_of_exponent h hgt)]
    rfl

theorem toRat?_of_unpack_zero {x : Float} {s : UnpackedFloat.Sign}
    (hx : x.toModel.unpack = .zero s) : toRat? x = some 0 := by
  rw [toRat?, ofFloat_eq_view, hx, view, toRat?_finite, Nat.cast_zero, zero_mul, neg_zero, ite_self]

theorem toRat?_of_unpack_infinity {x : Float} {s : UnpackedFloat.Sign}
    (hx : x.toModel.unpack = .infinity s) : toRat? x = none := by
  rw [toRat?, ofFloat_eq_view, hx]
  rfl

/-- A finite double stands for zero, or is in canonical form on one side of zero. -/
theorem unpack_cases {x : Float} {q : Rat} (hx : toRat? x = some q) :
    (∃ s, x.toModel.unpack = .zero s ∧ q = 0) ∨
      ∃ m e, ∃ h : Canonical m e,
        x.toModel.unpack = .finite .positive m e h.pos ∧ q = (m : Rat) * 2 ^ e ∨
        x.toModel.unpack = .finite .negative m e h.pos ∧ q = -((m : Rat) * 2 ^ e) := by
  cases hunpack : x.toModel.unpack with
  | notANumber | infinity s =>
      rw [toRat?, ofFloat_eq_view, hunpack] at hx
      cases hx
  | zero s =>
      rw [toRat?_of_unpack_zero hunpack] at hx
      exact .inl ⟨s, rfl, (Option.some.inj hx).symm⟩
  | finite s m e hm =>
      rw [toRat?, ofFloat_eq_view, hunpack, view, toRat?_finite] at hx
      have h := canonical_of_unpack hunpack
      cases s with
      | positive => exact .inr ⟨m, e, h, .inl ⟨rfl, (Option.some.inj hx).symm⟩⟩
      | negative => exact .inr ⟨m, e, h, .inr ⟨rfl, (Option.some.inj hx).symm⟩⟩

theorem Canonical.value_pos {m : Nat} {e : Int} (h : Canonical m e) : (0 : Rat) < m * 2 ^ e :=
  mul_pos (by exact_mod_cast h.pos) (zpow_pos (by norm_num) e)

theorem compare_neg (p q : Rat) : compare (-p) (-q) = (compare p q).swap := by
  rcases lt_trichotomy p q with h | rfl | h
  · rw [compare_lt_iff_lt.2 h, compare_gt_iff_gt.2 (neg_lt_neg h)]
    rfl
  · rw [compare_eq_iff_eq.2 rfl, compare_eq_iff_eq.2 rfl]
    rfl
  · rw [compare_gt_iff_gt.2 h, compare_lt_iff_lt.2 (neg_lt_neg h)]
    rfl

/-- **Finite doubles are compared as the numbers that they stand for.** -/
theorem compare_eq {x y : Float} {p q : Rat} (hx : toRat? x = some p) (hy : toRat? y = some q) :
    x.toModel.unpack.compare y.toModel.unpack = some (compare p q) := by
  rcases unpack_cases hx with ⟨s, hxu, rfl⟩ | ⟨m, e, h, ⟨hxu, rfl⟩ | ⟨hxu, rfl⟩⟩ <;>
    rcases unpack_cases hy with ⟨t, hyu, rfl⟩ | ⟨n, f, h', ⟨hyu, rfl⟩ | ⟨hyu, rfl⟩⟩ <;>
    rw [hxu, hyu]
  · rw [compare_eq_iff_eq.2 rfl]
    rfl
  · rw [compare_lt_iff_lt.2 h'.value_pos]
    rfl
  · rw [compare_gt_iff_gt.2 (neg_neg_of_pos h'.value_pos)]
    rfl
  · rw [compare_gt_iff_gt.2 h.value_pos]
    rfl
  · rw [← h.compare_eq h']
    rfl
  · rw [compare_gt_iff_gt.2 ((neg_neg_of_pos h'.value_pos).trans h.value_pos)]
    rfl
  · rw [compare_lt_iff_lt.2 (neg_neg_of_pos h.value_pos)]
    rfl
  · rw [compare_lt_iff_lt.2 ((neg_neg_of_pos h.value_pos).trans h'.value_pos)]
    rfl
  · rw [compare_neg, ← h.compare_eq h']
    rfl

theorem le_iff {x y : Float} {p q : Rat} (hx : toRat? x = some p) (hy : toRat? y = some q) :
    x ≤ y ↔ p ≤ q := by
  have hle : x ≤ y ↔ x.toModel.unpack.le y.toModel.unpack = true := decide_eq_true_iff
  rw [hle, UnpackedFloat.le, compare_eq hx hy]
  change (compare p q).isLE = true ↔ p ≤ q
  rw [Ordering.isLE_iff_ne_gt, compare_gt_iff_gt, not_lt]

theorem lt_iff {x y : Float} {p q : Rat} (hx : toRat? x = some p) (hy : toRat? y = some q) :
    x < y ↔ p < q := by
  have hlt : x < y ↔ x.toModel.unpack.lt y.toModel.unpack = true := decide_eq_true_iff
  rw [hlt, UnpackedFloat.lt, compare_eq hx hy, beq_iff_eq, Option.some.injEq, compare_lt_iff_lt]

end Montage.Decimal
