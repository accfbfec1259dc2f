import Montage.Proofs.Decimal.Double
import Montage.Tempo

/-!
# The stages of a tempo

Halving above two and doubling below one half are exact for rational numbers and also for
doubles.  What follows from this is said once for all such number systems (`ExactStages`): a
positive ratio comes between one half and two after no more stages than it has powers of two
on either side, and the product of the stages is the ratio.
-/

namespace Montage.Tempo

/-- Numbers that stand for rational ones, exactly as far as the stages of a tempo are computed
with them. -/
structure ExactStages {α : Type} [Arithmetic α] (stands : α → Rat → Prop) : Prop where
  two : stands Arithmetic.two 2
  half : stands Arithmetic.half (1 / 2)
  lt_two {x : α} {q : Rat} : stands x q → Arithmetic.lt Arithmetic.two x = decide (2 < q)
  lt_half {x : α} {q : Rat} : stands x q → Arithmetic.lt x Arithmetic.half = decide (q < 1 / 2)
  eq_one {x : α} {q : Rat} : stands x q → Arithmetic.eq x Arithmetic.one = decide (q = 1)
  div_two {x : α} {q : Rat} : stands x q → 2 < q → stands (Arithmetic.div x Arithmetic.two) (q / 2)
  div_half {x : α} {q : Rat} :
    stands x q → 0 < q → q < 1 / 2 → stands (Arithmetic.div x Arithmetic.half) (2 * q)

namespace ExactStages

variable {α : Type} [Arithmetic α] {stands : α → Rat → Prop} {x : α} {q : Rat}

/-- Stages of two end after as many steps as the ratio has powers of two above it. -/
theorem speedUp_ends (h : ExactStages stands) (n : Nat) (hx : stands x q) (hpos : 0 < q)
    (hq : q ≤ 2 ^ (n + 1)) :
    ∃ k y p, speedUp (n + 1) x = some (List.replicate k Arithmetic.two, y) ∧ stands y p ∧
      q = 2 ^ k * p ∧ 0 < p ∧ p ≤ 2 ∧ (k = 0 ∨ 1 < p) := by
  induction n generalizing x q with
  | zero =>
      have hlast : q ≤ 2 := by simpa using hq
      refine ⟨0, x, q, ?_, hx, by ring, hpos, hlast, .inl rfl⟩
      rw [speedUp, h.lt_two hx, decide_eq_false (not_lt.2 hlast)]
      rfl
  | succ n ih =>
      rw [speedUp, h.lt_two hx]
      by_cases hmore : 2 < q
      · -- One stage takes away one power of two.
        have hbound : q / 2 ≤ 2 ^ (n + 1) := by
          rw [pow_succ] at hq
          linarith
        obtain ⟨k, y, p, hstages, hy, hproduct, hp, hsmall, hlarge⟩ :=
          ih (h.div_two hx hmore) (by linarith) hbound
        refine ⟨k + 1, y, p, ?_, hy, ?_, hp, hsmall, .inr ?_⟩
        · rw [decide_eq_true hmore, if_pos rfl, hstages]
          rfl
        · rw [pow_succ]
          linarith
        · rcases hlarge with rfl | hlarge
          · rw [pow_zero, one_mul] at hproduct
            linarith
          · exact hlarge
      · refine ⟨0, x, q, ?_, hx, by ring, hpos, not_lt.1 hmore, .inl rfl⟩
        rw [decide_eq_false hmore]
        rfl

/-- Stages of one half end after as many steps as the ratio has powers of two below it. -/
theorem slowDown_ends (h : ExactStages stands) (n : Nat) (hx : stands x q) (hpos : 0 < q)
    (hq : 1 ≤ 2 ^ (n + 1) * q) :
    ∃ k y p, slowDown (n + 1) x = some (List.replicate k Arithmetic.half, y) ∧ stands y p ∧
      q = (1 / 2) ^ k * p ∧ 1 / 2 ≤ p ∧ (k = 0 ∨ p < 1) := by
  induction n generalizing x q with
  | zero =>
      rw [zero_add, pow_one] at hq
      have hlast : ¬ q < 1 / 2 := by linarith
      refine ⟨0, x, q, ?_, hx, by ring, not_lt.1 hlast, .inl rfl⟩
      rw [slowDown, h.lt_half hx, decide_eq_false hlast]
      rfl
  | succ n ih =>
      rw [slowDown, h.lt_half hx]
      by_cases hmore : q < 1 / 2
      · have hbound : 1 ≤ 2 ^ (n + 1) * (2 * q) := by
          rw [pow_succ] at hq
          linarith
        obtain ⟨k, y, p, hstages, hy, hproduct, hp, hsmall⟩ :=
          ih (h.div_half hx hpos hmore) (by linarith) hbound
        refine ⟨k + 1, y, p, ?_, hy, ?_, hp, .inr ?_⟩
        · rw [decide_eq_true hmore, if_pos rfl, hstages]
          rfl
        · rw [pow_succ]
          linarith
        · rcases hsmall with rfl | hsmall
          · rw [pow_zero, one_mul] at hproduct
            linarith
          · exact hsmall
      · refine ⟨0, x, q, ?_, hx, by ring, not_lt.1 hmore, .inl rfl⟩
        rw [decide_eq_false hmore]
        rfl

/-- The stages of a positive ratio: twos or halves, and the rest unless it is one.  Only behind
twos can the rest exceed one, and only behind halves can it be less. -/
theorem stagesWithin_ends (h : ExactStages stands) (n : Nat) (hx : stands (Arithmetic.real x) q)
    (hpos : 0 < q) (hlarge : q ≤ 2 ^ (n + 1)) (hsmall : 1 ≤ 2 ^ (n + 1) * q) :
    ∃ fast slow y p,
      stagesWithin (n + 1) x = some (List.replicate fast Arithmetic.two ++
        List.replicate slow Arithmetic.half ++ if p = 1 then [] else [y]) ∧
      stands y p ∧ q = 2 ^ fast * (1 / 2) ^ slow * p ∧ 1 / 2 ≤ p ∧ p ≤ 2 ∧
      (slow = 0 ∧ (fast = 0 ∨ 1 < p) ∨ fast = 0 ∧ p < 1) := by
  obtain ⟨fast, between, r, hfast, hbetween, hproduct, hr, hrlarge, hrsmall⟩ :=
    h.speedUp_ends n hx hpos hlarge
  -- What is left after stages of two needs none of one half.
  have hreach : 1 ≤ 2 ^ (n + 1) * r := by
    rcases hrsmall with rfl | hone
    · rwa [hproduct, pow_zero, one_mul] at hsmall
    · have hpower : (1 : Rat) ≤ 2 ^ (n + 1) := one_le_pow₀ (by norm_num)
      nlinarith
  obtain ⟨slow, y, p, hslow, hy, hrest, hp, hpsmall⟩ := h.slowDown_ends n hbetween hr hreach
  refine ⟨fast, slow, y, p, ?_, hy, ?_, hp, ?_, ?_⟩
  · simp only [stagesWithin, hfast, hslow, h.eq_one hy, decide_eq_true_eq]
  · rw [hproduct, hrest]
    ring
  · rcases hpsmall with rfl | hpsmall
    · rw [pow_zero, one_mul] at hrest
      linarith
    · linarith
  · rcases hpsmall with rfl | hpsmall
    · rw [pow_zero, one_mul] at hrest
      exact .inl ⟨rfl, hrest ▸ hrsmall⟩
    · rcases hrsmall with rfl | hone
      · exact .inr ⟨rfl, hpsmall⟩
      · -- A rest that exceeds one is not made smaller.
        have hpower : (1 / 2 : Rat) ^ slow ≤ 1 := pow_le_one₀ (by norm_num) (by norm_num)
        have hless : (1 / 2 : Rat) ^ slow * p < 1 :=
          (mul_le_of_le_one_left (by linarith) hpower).trans_lt hpsmall
        rw [hrest] at hone
        exact absurd hone (not_lt.2 hless.le)

end ExactStages

section Doubles

open Decimal

/-- The rational number that a number of the program stands for. -/
def Stands (x : Number) (q : Rat) : Prop := ∃ y : Float, x = .float y ∧ toRat? y = some q

theorem toRat?_zero : toRat? (Float.ofInt 0) = some 0 := by
  decide +kernel

theorem toRat?_one : toRat? (Float.ofInt 1) = some 1 := by
  decide +kernel

theorem toRat?_two : toRat? (Float.ofInt 2) = some 2 := by
  rw [toRat?_of_unpack unpack_two]
  norm_num

theorem toRat?_half : toRat? (0.5 : Float) = some (1 / 2) := by
  rw [toRat?_of_unpack unpack_half]
  norm_num

section

variable {x y : Float} {p q : Rat}

theorem lt_float (hx : toRat? x = some p) (hy : toRat? y = some q) :
    Number.lt (.float x) (.float y) = decide (p < q) := by
  simp only [Number.lt, Number.compareWith, Number.toRat?, hx, hy]

theorem le_float (hx : toRat? x = some p) (hy : toRat? y = some q) :
    Number.le (.float x) (.float y) = decide (p ≤ q) := by
  simp only [Number.le, Number.compareWith, Number.toRat?, hx, hy]

theorem eq_float (hx : toRat? x = some p) (hy : toRat? y = some q) :
    Number.eq (.float x) (.float y) = decide (p = q) := by
  simp only [Number.eq, Number.compareWith, Number.toRat?, hx, hy]

end

theorem exactStages_number : ExactStages Stands where
  two := ⟨_, rfl, toRat?_two⟩
  half := ⟨_, rfl, toRat?_half⟩
  lt_two := by
    rintro - q ⟨x, rfl, hx⟩
    exact lt_float toRat?_two hx
  lt_half := by
    rintro - q ⟨x, rfl, hx⟩
    exact lt_float hx toRat?_half
  eq_one := by
    rintro - q ⟨x, rfl, hx⟩
    exact eq_float hx toRat?_one
  div_two := by
    rintro - q ⟨x, rfl, hx⟩ hq
    exact ⟨_, rfl, toRat?_div_two hx hq⟩
  div_half := by
    rintro - q ⟨x, rfl, hx⟩ hpos hq
    exact ⟨_, rfl, toRat?_div_half hx hpos hq⟩

/-- **The stages of a positive finite ratio end.** -/
theorem exists_stages {x : Float} {q : Rat} (hx : toRat? x = some q) (hpos : 0 < q) :
    ∃ list, stages (Number.float x) = .ok list := by
  obtain ⟨m, e, h, -, rfl⟩ := exists_canonical hx hpos
  obtain ⟨hsmall, hlarge⟩ := h.bounds (show 1074 ≤ 1100 by norm_num)
  obtain ⟨fast, slow, y, p, hstages, -⟩ := exactStages_number.stagesWithin_ends 1099
    (x := .float x) ⟨x, rfl, hx⟩ hpos hlarge hsmall
  have hreach : Arithmetic.reach (Number.float x) = 1099 + 1 := rfl
  rw [stages, hreach, hstages]
  exact ⟨_, rfl⟩

/-- A ratio that passes the check exceeds zero. -/
theorem pos_of_check {x : Float} {q : Rat} (hx : toRat? x = some q)
    (hcheck : check (Number.float x) = .ok ()) : 0 < q := by
  have hle : Arithmetic.isAtMostZero (Number.float x) = decide (q ≤ 0) :=
    le_float hx toRat?_zero
  by_contra hnot
  rw [check, hle, decide_eq_true (not_lt.1 hnot), if_pos rfl] at hcheck
  cases hcheck

/-- A finite ratio that passes the check has stages. -/
theorem exists_stages_of_check {x : Float} (hx : x.isFinite = true)
    (hcheck : check (Number.float x) = .ok ()) : ∃ list, stages (Number.float x) = .ok list := by
  obtain ⟨q, hq⟩ := (isFinite_iff x).1 hx
  exact exists_stages hq (pos_of_check hq hcheck)

end Doubles

section Rationals

theorem exactStages_rat : ExactStages (α := Rat) Eq where
  two := rfl
  half := rfl
  lt_two := by
    rintro x - rfl
    rfl
  lt_half := by
    rintro x - rfl
    rfl
  eq_one := by
    rintro x - rfl
    rfl
  div_two := by
    rintro x - rfl -
    rfl
  div_half := by
    rintro x - rfl - -
    change x / (1 / 2) = 2 * x
    ring

/-- No more halvings or doublings are needed than the fraction has binary digits. -/
theorem reach_bounds {q : Rat} (hq : 0 < q) :
    q ≤ 2 ^ Arithmetic.reach q ∧ 1 ≤ 2 ^ Arithmetic.reach q * q := by
  have hreach : Arithmetic.reach q = q.num.natAbs.log2 + q.den.log2 + 1 := rfl
  have hone : (1 : Rat) ≤ q.den := by exact_mod_cast q.den_pos
  have hnum : (q.num : Rat) = q.num.natAbs := by
    rw [Nat.cast_natAbs, abs_of_pos (Rat.num_pos.2 hq)]
  have hpos : (1 : Rat) ≤ q.num := by exact_mod_cast Rat.num_pos.2 hq
  have hfraction : q * q.den = q.num := Rat.mul_den_eq_num q
  have habove (n : Nat) (hn : n.log2 + 1 ≤ Arithmetic.reach q) :
      (n : Rat) ≤ 2 ^ Arithmetic.reach q := by
    calc (n : Rat) ≤ 2 ^ (n.log2 + 1) := by exact_mod_cast Nat.lt_log2_self.le
      _ ≤ 2 ^ Arithmetic.reach q := pow_le_pow_right₀ (by norm_num) hn
  constructor
  · calc q ≤ q * q.den := le_mul_of_one_le_right hq.le hone
      _ = q.num.natAbs := by rw [hfraction, hnum]
      _ ≤ 2 ^ Arithmetic.reach q := habove _ (by omega)
  · calc (1 : Rat) ≤ q.num := hpos
      _ = q.den * q := by rw [← hfraction, mul_comm]
      _ ≤ 2 ^ Arithmetic.reach q * q := mul_le_mul_of_nonneg_right (habove _ (by omega)) hq.le

/-- **The stages of a positive rational ratio multiply to the ratio.** -/
theorem stages_rat {q : Rat} (hq : 0 < q) : ∃ list, stages q = .ok list ∧ list.prod = q := by
  obtain ⟨hlarge, hsmall⟩ := reach_bounds hq
  obtain ⟨fast, slow, y, p, hstages, rfl, hproduct, -⟩ :=
    exactStages_rat.stagesWithin_ends _ (x := q) rfl hq hlarge hsmall
  have htwo : (Arithmetic.two : Rat) = 2 := rfl
  have hhalf : (Arithmetic.half : Rat) = 1 / 2 := rfl
  have hratio : q = 2 ^ fast * (1 / 2) ^ slow * y := hproduct
  have hreach : Arithmetic.reach q = q.num.natAbs.log2 + q.den.log2 + 1 := rfl
  refine ⟨_, by rw [stages, hreach, hstages], ?_⟩
  rw [List.prod_append, List.prod_append, List.prod_replicate, List.prod_replicate, htwo, hhalf]
  by_cases hp : y = 1
  · rw [if_pos hp, List.prod_nil, hratio, hp]
  · rw [if_neg hp, List.prod_singleton, hratio]

end Rationals

end Montage.Tempo
