import Montage.Proofs.Decimal.Whole
import Montage.Proofs.Tempo.Stages

/-!
# Tempos without stages

The check of a tempo asks only whether it is at most zero, so it takes an infinity and
not-a-number.  A whole number that passes has a positive double, or is too large for one and is
refused; and a finite double has stages between the bounds.  Half of an infinity is an infinity,
so its stages have no end, and not-a-number, which compares with nothing, is left over as a stage
of its own (`settles_iff`).
-/

namespace Montage.Tempo

open Decimal Float.Model

theorem isAtMostZero_eq (n : Number) :
    Arithmetic.isAtMostZero n = Number.le n (.float (Float.ofInt 0)) := rfl

section Special

variable {x y : Float}

theorem toRat?_of_not_isFinite (hx : x.isFinite = false) : toRat? x = none := by
  rw [Option.eq_none_iff_forall_ne_some]
  intro q hq
  rw [(isFinite_iff x).2 ⟨q, hq⟩] at hx
  cases hx

/-- Doubles are compared as they are if one of them stands for no number. -/
theorem compareWith_of_none (finite : Rat → Rat → Bool) (floats : Float → Float → Bool)
    (h : toRat? x = none ∨ toRat? y = none) :
    Number.compareWith finite floats (.float x) (.float y) = floats x y := by
  unfold Number.compareWith
  rcases h with h | h
  · simp only [Number.toRat?, h]
    rfl
  · cases hx : toRat? x <;> simp only [Number.toRat?, hx, h] <;> rfl

theorem lt_of_none (h : toRat? x = none ∨ toRat? y = none) :
    Number.lt (.float x) (.float y) = x.toModel.unpack.lt y.toModel.unpack := by
  rw [Number.lt, compareWith_of_none _ _ h]
  change decide (decide (x.toModel.unpack.lt y.toModel.unpack = true) = true) = _
  rw [Bool.decide_eq_true, Bool.decide_eq_true]

/-- What a double is that is not finite. -/
theorem unpack_of_not_isFinite (hx : x.isFinite = false) :
    x.toModel.unpack = .notANumber ∨ ∃ s, x.toModel.unpack = .infinity s := by
  change x.toModel.unpack.isFinite = false at hx
  cases hunpack : x.toModel.unpack with
  | notANumber => exact .inl rfl
  | infinity s => exact .inr ⟨s, rfl⟩
  | zero s | finite s m e hm =>
      rw [hunpack] at hx
      cases hx

/-- The infinity that passes the check is the positive one. -/
theorem positive_of_infinity {s : UnpackedFloat.Sign} (hx : x.toModel.unpack = .infinity s)
    (hpos : Arithmetic.isAtMostZero (Number.float x) = false) : s = .positive := by
  cases s with
  | positive => rfl
  | negative =>
      -- The negative one is below zero, which the check refuses.
      have hfinite : x.isFinite = x.toModel.unpack.isFinite := rfl
      rw [hx] at hfinite
      have hle : Number.le (.float x) (.float (Float.ofInt 0)) = decide (x ≤ Float.ofInt 0) :=
        compareWith_of_none _ _ (.inl (toRat?_of_not_isFinite hfinite))
      change _ = decide (decide (x.toModel.unpack.le _ = true) = true) at hle
      rw [isAtMostZero_eq] at hpos
      rw [hx, hpos] at hle
      cases hle

/-- Half of an infinity is an infinity, so that no number of steps is enough. -/
theorem speedUp_infinity (hx : x.toModel.unpack = .infinity .positive) (fuel : Nat) :
    speedUp fuel (Number.float x) = none := by
  induction fuel generalizing x with
  | zero => rfl
  | succ fuel ih =>
      have hfinite : x.isFinite = x.toModel.unpack.isFinite := rfl
      rw [hx] at hfinite
      have hmore : Arithmetic.lt Arithmetic.two (Number.float x) = true := by
        have hlt := lt_of_none (x := Float.ofInt 2) (.inr (toRat?_of_not_isFinite hfinite))
        rw [unpack_two, hx] at hlt
        exact hlt
      have hhalf : (x / Float.ofInt 2).toModel.unpack = .infinity .positive := by
        rw [unpack_div, hx, unpack_two]
        rfl
      have hrest : speedUp fuel (Arithmetic.div (Number.float x) Arithmetic.two) = none := ih hhalf
      rw [speedUp, if_pos hmore, hrest, Option.map_none]

/-- Not-a-number is below no bound and is not one. -/
theorem stagesWithin_nan (hx : x.toModel.unpack = .notANumber) (fuel : Nat) :
    stagesWithin (fuel + 1) (Number.float x) = some [.float x] := by
  have hfinite : x.isFinite = x.toModel.unpack.isFinite := rfl
  rw [hx] at hfinite
  have hnone := toRat?_of_not_isFinite hfinite
  have hfast : Arithmetic.lt Arithmetic.two (Number.float x) = false := by
    have hlt := lt_of_none (x := Float.ofInt 2) (.inr hnone)
    rw [unpack_two, hx] at hlt
    exact hlt
  have hslow : Arithmetic.lt (Number.float x) Arithmetic.half = false := by
    have hlt := lt_of_none (y := 0.5) (.inl hnone)
    rw [unpack_half, hx] at hlt
    exact hlt
  have hone : Arithmetic.eq (Number.float x) Arithmetic.one = false := by
    have heq := compareWith_of_none (y := Float.ofInt 1) (fun x y => decide (x = y))
      (fun x y => x == y) (.inl hnone)
    change _ = x.toModel.unpack.beq _ at heq
    rw [hx] at heq
    exact heq
  have hreal : Arithmetic.real (Number.float x) = .float x := rfl
  simp [stagesWithin, speedUp, slowDown, hreal, hfast, hslow, hone]

/-- What becomes of a double that is not finite and passes the check. -/
theorem stages_of_not_isFinite (hx : x.isFinite = false)
    (hpos : Arithmetic.isAtMostZero (Number.float x) = false) :
    x.isNaN = true ∧ stages (Number.float x) = .ok [.float x] ∧
        EndsWith (Number.float x) [.float x] ∨
      x.isInf = true ∧ stages (Number.float x) = .error (.fault .endless) ∧
        ∀ fuel, stagesWithin fuel (Number.float x) = none := by
  have hnan : x.isNaN = x.toModel.unpack.isNaN := rfl
  have hinf : x.isInf = x.toModel.unpack.isInf := rfl
  rcases unpack_of_not_isFinite hx with hunpack | ⟨s, hunpack⟩
  · rw [hunpack] at hnan
    refine .inl ⟨hnan, ?_, endsWith_of_stagesWithin (stagesWithin_nan hunpack 0)⟩
    have hreach : Arithmetic.reach (Number.float x) = 1099 + 1 := rfl
    rw [stages, hreach, stagesWithin_nan hunpack]
  · obtain rfl := positive_of_infinity hunpack hpos
    rw [hunpack] at hinf
    have hendless (fuel : Nat) : stagesWithin fuel (Number.float x) = none := by
      have hreal : Arithmetic.real (Number.float x) = .float x := rfl
      rw [stagesWithin, hreal, speedUp_infinity hunpack]
    exact .inr ⟨hinf, by rw [stages, hendless], hendless⟩

end Special

/-- The stages of a tempo are found, and each is a number between the two bounds. -/
def HasStages (n : Number) : Prop :=
  ∃ (list : List Number) (values : List Rat), stages n = .ok list ∧ EndsWith n list ∧
    list.map Number.toRat? = values.map some ∧ ∀ v ∈ values, 1 / 2 ≤ v ∧ v ≤ 2

/-- A tempo is too large for a double, or it has stages between the bounds. -/
def Settles (n : Number) : Prop :=
  check n = .error (.fault .tooLarge) ∨ check n = .ok () ∧ HasStages n

/-- A positive finite double has stages between the bounds. -/
theorem hasStages_of_pos {x : Float} {q : Rat} (hx : toRat? x = some q) (hpos : 0 < q) :
    HasStages (.float x) := by
  obtain ⟨fast, slow, p, rest, hdivides, hrest, hstages, hends⟩ := exists_divides hx hpos
  refine ⟨_, valuesOf fast slow p, hstages, hends, map_toRat?_stagesOf hrest, fun v hv => ?_⟩
  obtain ⟨hlow, hhigh, -⟩ := hdivides.mem_valuesOf hv
  exact ⟨hlow, hhigh⟩

theorem le_int {n : Int} {y : Float} {q : Rat} (hy : toRat? y = some q) :
    Number.le (.int n) (.float y) = decide ((n : Rat) ≤ q) := by
  simp only [Number.le, Number.compareWith, Number.toRat?, hy]

theorem pos_of_int {n : Int} (h : Arithmetic.isAtMostZero (Number.int n) = false) : 0 < n := by
  have hle := le_int (n := n) toRat?_zero
  rw [isAtMostZero_eq] at h
  rw [h, eq_comm, decide_eq_false_iff_not, not_le] at hle
  exact_mod_cast hle

/-- A whole number that is not refused is too large, or has the stages of its double. -/
theorem settles_int {n : Int} (hpos : Arithmetic.isAtMostZero (Number.int n) = false) :
    Settles (.int n) := by
  have hn := pos_of_int hpos
  by_cases hfits : (Float.ofInt n).isFinite = true
  · obtain ⟨q, hq, hqpos⟩ := toRat?_ofInt_pos hn hfits
    refine .inr ⟨?_, hasStages_of_pos hq hqpos⟩
    have hreal : Arithmetic.fits (Number.int n) = true := by
      simp [Arithmetic.fits, Number.toFloat?, hfits, Except.toBool]
    simp [check, hpos, hreal]
  · have hreal : Arithmetic.fits (Number.int n) = false := by
      simp [Arithmetic.fits, Number.toFloat?, hfits, Except.toBool]
    exact .inl (by simp [check, hpos, hreal])

/-- A double that is not finite has no stages between the bounds, and it is not too large. -/
theorem not_settles {x : Float} (hx : x.isFinite = false)
    (hpos : Arithmetic.isAtMostZero (Number.float x) = false) : ¬ Settles (.float x) := by
  rintro (hlarge | ⟨-, list, values, hstages, -, hvalues, -⟩)
  · cases hlarge.symm.trans (check_float hpos)
  · rcases stages_of_not_isFinite hx hpos with ⟨-, hsingle, -⟩ | ⟨-, hendless, -⟩
    · -- Not-a-number stands for no number.
      obtain rfl := Except.ok.inj (hsingle.symm.trans hstages)
      have hnone : Number.toRat? (.float x) = none := toRat?_of_not_isFinite hx
      rw [List.map_singleton, hnone] at hvalues
      cases values <;> cases hvalues
    · cases hendless.symm.trans hstages

/-- **Which tempos that are not refused have stages between the bounds.**  A tempo that exceeds
zero, or compares with nothing, is too large for a double or has such stages, unless it is an
infinity or not-a-number.  Both pass the check.  Not-a-number is its own single stage, and the
stages of an infinity have no end. -/
theorem settles_iff {n : Number} (hpos : Arithmetic.isAtMostZero n = false) :
    (Settles n ↔ ∀ x, n = .float x → x.isFinite = true) ∧
      ∀ x, n = .float x → x.isFinite = false → check n = .ok () ∧
        (x.isNaN = true ∧ stages n = .ok [.float x] ∧ EndsWith n [.float x] ∨
          x.isInf = true ∧ stages n = .error (.fault .endless) ∧
            ∀ fuel, stagesWithin fuel n = none) := by
  cases n with
  | int n => exact ⟨⟨fun _ => nofun, fun _ => settles_int hpos⟩, nofun⟩
  | float x =>
      refine ⟨⟨?_, fun hfinite => ?_⟩, ?_⟩
      · rintro hsettles _ ⟨⟩
        by_contra hfinite
        exact not_settles (Bool.eq_false_of_not_eq_true hfinite) hpos hsettles
      · obtain ⟨q, hq⟩ := (isFinite_iff x).1 (hfinite x rfl)
        exact .inr ⟨check_float hpos, hasStages_of_pos hq (pos_of_check hq (check_float hpos))⟩
      · rintro _ ⟨⟩ hfinite
        exact ⟨check_float hpos, stages_of_not_isFinite hfinite hpos⟩

/-- Not-a-number passes the check and becomes a stage, which is no number between the bounds. -/
theorem settles_not_nan :
    Arithmetic.isAtMostZero (Number.float (0.0 / 0.0)) = false ∧
      stages (Number.float (0.0 / 0.0)) = .ok [.float (0.0 / 0.0)] ∧
      ¬ Settles (.float (0.0 / 0.0)) := by
  have hpos : Arithmetic.isAtMostZero (Number.float (0.0 / 0.0)) = false := by decide +kernel
  have hfinite : (0.0 / 0.0 : Float).isFinite = false := by decide +kernel
  obtain ⟨hiff, hspecial⟩ := settles_iff hpos
  refine ⟨hpos, by decide +kernel, fun hsettles => ?_⟩
  rw [hiff.1 hsettles _ rfl] at hfinite
  cases hfinite

end Montage.Tempo
