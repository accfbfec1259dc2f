import Montage.Proofs.Tempo

/-!
# The stages of a tempo are exact and as few as can be

The stages of a finite positive double come out of two loops, which are given a bound on their
steps.  The bound does not show: a loop that has ended within it does so within any larger one
(`EndsWith`).  The stages multiply to the double, each lies between one half and two, and since
so many factors between these bounds cannot have a product outside of their powers, no list with
the same product is shorter (`stages_exact_and_fewest`).
-/

namespace Montage.Tempo

section Loops

variable {α : Type} [Arithmetic α]

/-- A loop that has ended is not changed by more steps. -/
theorem speedUp_mono {fuel more : Nat} (hmore : fuel ≤ more) {r : α} {result : List α × α}
    (h : speedUp fuel r = some result) : speedUp more r = some result := by
  induction fuel generalizing more r result with
  | zero => cases h
  | succ fuel ih =>
      obtain ⟨more, rfl⟩ := Nat.exists_eq_add_of_le' (Nat.lt_of_lt_of_le fuel.succ_pos hmore)
      rw [speedUp] at h ⊢
      by_cases hlarge : Arithmetic.lt Arithmetic.two r = true
      · rw [if_pos hlarge] at h ⊢
        obtain ⟨rest, hrest, hresult⟩ := Option.map_eq_some_iff.1 h
        rw [ih (Nat.le_of_succ_le_succ hmore) hrest, Option.map_some, hresult]
      · rwa [if_neg hlarge] at h ⊢

theorem slowDown_mono {fuel more : Nat} (hmore : fuel ≤ more) {r : α} {result : List α × α}
    (h : slowDown fuel r = some result) : slowDown more r = some result := by
  induction fuel generalizing more r result with
  | zero => cases h
  | succ fuel ih =>
      obtain ⟨more, rfl⟩ := Nat.exists_eq_add_of_le' (Nat.lt_of_lt_of_le fuel.succ_pos hmore)
      rw [slowDown] at h ⊢
      by_cases hsmall : Arithmetic.lt r Arithmetic.half = true
      · rw [if_pos hsmall] at h ⊢
        obtain ⟨rest, hrest, hresult⟩ := Option.map_eq_some_iff.1 h
        rw [ih (Nat.le_of_succ_le_succ hmore) hrest, Option.map_some, hresult]
      · rwa [if_neg hsmall] at h ⊢

theorem stagesWithin_mono {fuel more : Nat} (hmore : fuel ≤ more) {ratio : α} {list : List α}
    (h : stagesWithin fuel ratio = some list) : stagesWithin more ratio = some list := by
  unfold stagesWithin at h ⊢
  cases hfast : speedUp fuel (Arithmetic.real ratio) with
  | none =>
      rw [hfast] at h
      cases h
  | some fast =>
      rw [hfast] at h
      cases hslow : slowDown fuel fast.2 with
      | none =>
          simp only [hslow] at h
          cases h
      | some slow =>
          simp only [hslow] at h
          simp only [speedUp_mono hmore hfast, slowDown_mono hmore hslow, h]

/-- The loops over a ratio end after some number of steps, and these are the stages. -/
def EndsWith (ratio : α) (list : List α) : Prop :=
  ∃ enough, ∀ fuel ≥ enough, stagesWithin fuel ratio = some list

/-- Loops that have ended within one number of steps do so within more. -/
theorem endsWith_of_stagesWithin {fuel : Nat} {ratio : α} {list : List α}
    (h : stagesWithin fuel ratio = some list) : EndsWith ratio list :=
  ⟨fuel, fun _ hmore => stagesWithin_mono hmore h⟩

end Loops

section Fewest

/-- A product of factors between one half and two lies between the powers of these. -/
theorem prod_bounds {ratios : List ℝ} (h : ∀ r ∈ ratios, 1 / 2 ≤ r ∧ r ≤ 2) :
    (1 / 2) ^ ratios.length ≤ ratios.prod ∧ ratios.prod ≤ 2 ^ ratios.length := by
  induction ratios with
  | nil => simp
  | cons r rest ih =>
      obtain ⟨hlow, hhigh⟩ := h r List.mem_cons_self
      obtain ⟨ihlow, ihhigh⟩ := ih fun s hs => h s (List.mem_cons_of_mem _ hs)
      have hrest : 0 ≤ rest.prod := le_trans (by positivity) ihlow
      rw [List.length_cons, List.prod_cons, pow_succ', pow_succ']
      exact ⟨mul_le_mul hlow ihlow (by positivity) (by linarith),
        mul_le_mul hhigh ihhigh hrest (by norm_num)⟩

/-- How a ratio is divided: into twos and halves, and a rest that may not turn back. -/
structure Divides (fast slow : Nat) (p q : Rat) : Prop where
  product : q = 2 ^ fast * (1 / 2) ^ slow * p
  low : 1 / 2 ≤ p
  high : p ≤ 2
  side : slow = 0 ∧ (fast = 0 ∨ 1 < p) ∨ fast = 0 ∧ p < 1

variable {fast slow : Nat} {p q : Rat}

/-- A ratio above two is divided into twos and a rest above one. -/
theorem Divides.of_two_lt (h : Divides fast slow p q) (hq : 2 < q) : slow = 0 ∧ 1 < p := by
  have hproduct := h.product
  rcases h.side with ⟨rfl, rfl | hone⟩ | ⟨rfl, hless⟩
  · rw [pow_zero, pow_zero, one_mul, one_mul] at hproduct
    exact absurd h.high (not_le.2 (hproduct ▸ hq))
  · exact ⟨rfl, hone⟩
  · -- Halves alone do not bring a rest below one above two.
    have hpower : (1 / 2 : Rat) ^ slow ≤ 1 := pow_le_one₀ (by norm_num) (by norm_num)
    rw [pow_zero, one_mul] at hproduct
    nlinarith [h.low]

/-- A ratio below one half is divided into halves and a rest below one. -/
theorem Divides.of_lt_half (h : Divides fast slow p q) (hq : q < 1 / 2) : fast = 0 ∧ p < 1 := by
  have hproduct := h.product
  rcases h.side with ⟨rfl, rfl | hone⟩ | ⟨rfl, hless⟩
  · rw [pow_zero, pow_zero, one_mul, one_mul] at hproduct
    exact absurd h.low (not_le.2 (hproduct ▸ hq))
  · have hpower : (1 : Rat) ≤ 2 ^ fast := one_le_pow₀ (by norm_num)
    rw [pow_zero, mul_one] at hproduct
    nlinarith
  · exact ⟨rfl, hless⟩

/-- No list of factors between one half and two with the same product is shorter. -/
theorem Divides.fewest (h : Divides fast slow p q) {ratios : List ℝ}
    (hratios : ∀ r ∈ ratios, 1 / 2 ≤ r ∧ r ≤ 2) (hprod : ratios.prod = q) :
    fast + slow + (if p = 1 then 0 else 1) ≤ ratios.length := by
  obtain ⟨hbelow, habove⟩ := prod_bounds hratios
  have hproduct : ratios.prod = 2 ^ fast * (1 / 2) ^ slow * (p : ℝ) := by
    rw [hprod, h.product]
    push_cast
    rfl
  rcases h.side with ⟨rfl, rfl | hone⟩ | ⟨rfl, hless⟩
  · -- A single factor, which is missing only if it is one.
    by_cases hp : p = 1
    · rw [if_pos hp]
      exact Nat.zero_le _
    · rw [if_neg hp, zero_add, zero_add, Nat.one_le_iff_ne_zero]
      intro hnone
      rw [List.length_eq_zero_iff.1 hnone, List.prod_nil, pow_zero, pow_zero, one_mul,
        one_mul] at hproduct
      exact hp (by exact_mod_cast hproduct.symm)
  · -- As many factors as there are twos do not exceed these, and the rest exceeds one.
    rw [if_neg hone.ne', Nat.add_zero]
    by_contra hfew
    have hpower : (2 : ℝ) ^ ratios.length ≤ 2 ^ fast :=
      pow_le_pow_right₀ (by norm_num) (by omega)
    have hexceeds : (2 : ℝ) ^ fast < 2 ^ fast * p :=
      lt_mul_of_one_lt_right (by positivity) (by exact_mod_cast hone)
    rw [pow_zero, mul_one] at hproduct
    linarith
  · -- As many factors as there are halves are not below these, and the rest is below one.
    rw [if_neg hless.ne, Nat.zero_add]
    by_contra hfew
    have hpower : (1 / 2 : ℝ) ^ slow ≤ (1 / 2) ^ ratios.length :=
      pow_le_pow_of_le_one (by norm_num) (by norm_num) (by omega)
    have hless : (1 / 2 : ℝ) ^ slow * p < (1 / 2) ^ slow :=
      mul_lt_of_lt_one_right (by positivity) (by exact_mod_cast hless)
    rw [pow_zero, one_mul] at hproduct
    linarith

/-- The values of the stages. -/
def valuesOf (fast slow : Nat) (p : Rat) : List Rat :=
  List.replicate fast 2 ++ List.replicate slow (1 / 2) ++ if p = 1 then [] else [p]

theorem Divides.prod_valuesOf (h : Divides fast slow p q) : (valuesOf fast slow p).prod = q := by
  rw [valuesOf, List.prod_append, List.prod_append, List.prod_replicate, List.prod_replicate,
    h.product]
  by_cases hp : p = 1
  · rw [if_pos hp, List.prod_nil, hp]
  · rw [if_neg hp, List.prod_singleton]

theorem Divides.mem_valuesOf (h : Divides fast slow p q) {v : Rat}
    (hv : v ∈ valuesOf fast slow p) : 1 / 2 ≤ v ∧ v ≤ 2 ∧ v ≠ 1 := by
  rw [valuesOf, List.mem_append, List.mem_append] at hv
  rcases hv with (hv | hv) | hv
  · rw [List.eq_of_mem_replicate hv]
    norm_num
  · rw [List.eq_of_mem_replicate hv]
    norm_num
  · by_cases hp : p = 1
    · rw [if_pos hp] at hv
      cases hv
    · rw [if_neg hp, List.mem_singleton] at hv
      rw [hv]
      exact ⟨h.low, h.high, hp⟩

end Fewest

open Decimal

/-- The stages of a ratio that is divided in this way. -/
def stagesOf (fast slow : Nat) (p : Rat) (rest : Float) : List Number :=
  List.replicate fast Arithmetic.two ++ List.replicate slow Arithmetic.half ++
    if p = 1 then [] else [.float rest]

section

variable {fast slow : Nat} {p q : Rat} {rest : Float}

theorem length_stagesOf :
    (stagesOf fast slow p rest).length = fast + slow + (if p = 1 then 0 else 1) := by
  rw [stagesOf, List.length_append, List.length_append, List.length_replicate,
    List.length_replicate]
  split <;> rfl

theorem map_toRat?_stagesOf (hrest : toRat? rest = some p) :
    (stagesOf fast slow p rest).map Number.toRat? = (valuesOf fast slow p).map some := by
  have htwo : Number.toRat? Arithmetic.two = some 2 := toRat?_two
  have hhalf : Number.toRat? Arithmetic.half = some (1 / 2) := toRat?_half
  have hlast : Number.toRat? (.float rest) = some p := hrest
  rw [stagesOf, valuesOf]
  split <;> simp [htwo, hhalf, hlast]

/-- There is no stage exactly if the ratio is one. -/
theorem Divides.stagesOf_eq_nil_iff (h : Divides fast slow p q) :
    stagesOf fast slow p rest = [] ↔ q = 1 := by
  rw [← List.length_eq_zero_iff, length_stagesOf]
  constructor
  · intro hnone
    have hp : p = 1 := by
      by_contra hp
      rw [if_neg hp] at hnone
      omega
    obtain ⟨rfl, rfl⟩ : fast = 0 ∧ slow = 0 := by omega
    rw [h.product, hp]
    norm_num
  · rintro rfl
    -- The empty list has the product one, and no list is shorter than the stages.
    have hnone : ([] : List ℝ).prod = ((1 : Rat) : ℝ) := by simp
    exact Nat.le_zero.1 (h.fewest (by simp) hnone)

/-- All stages but the last are two if the ratio exceeds two. -/
theorem Divides.dropLast_of_two_lt (h : Divides fast slow p q) (hq : 2 < q) :
    (stagesOf fast slow p rest).dropLast = List.replicate fast Arithmetic.two := by
  obtain ⟨rfl, hp⟩ := h.of_two_lt hq
  rw [stagesOf, if_neg hp.ne', List.replicate_zero, List.append_nil, List.dropLast_concat]

/-- All stages but the last are one half if the ratio is below one half. -/
theorem Divides.dropLast_of_lt_half (h : Divides fast slow p q) (hq : q < 1 / 2) :
    (stagesOf fast slow p rest).dropLast = List.replicate slow Arithmetic.half := by
  obtain ⟨rfl, hp⟩ := h.of_lt_half hq
  rw [stagesOf, if_neg hp.ne, List.replicate_zero, List.nil_append, List.dropLast_concat]

end

/-- The stages of a positive finite double, and how they divide it. -/
theorem exists_divides {x : Float} {q : Rat} (hx : toRat? x = some q) (hpos : 0 < q) :
    ∃ fast slow p rest, Divides fast slow p q ∧ toRat? rest = some p ∧
      stages (Number.float x) = .ok (stagesOf fast slow p rest) ∧
      EndsWith (Number.float x) (stagesOf fast slow p rest) := by
  obtain ⟨m, e, h, -, rfl⟩ := exists_canonical hx hpos
  obtain ⟨hsmall, hlarge⟩ := h.bounds (show 1074 ≤ 1100 by norm_num)
  obtain ⟨fast, slow, _, p, hstages, ⟨rest, rfl, hrest⟩, hproduct, hlow, hhigh, hside⟩ :=
    exactStages_number.stagesWithin_ends 1099 (x := .float x) ⟨x, rfl, hx⟩ hpos hlarge hsmall
  have hreach : Arithmetic.reach (Number.float x) = 1099 + 1 := rfl
  refine ⟨fast, slow, p, rest, ⟨hproduct, hlow, hhigh, hside⟩, hrest, ?_,
    endsWith_of_stagesWithin hstages⟩
  rw [stages, hreach, hstages]
  rfl

/-- The check of a double asks only whether it is at most zero. -/
theorem check_float {x : Float} (h : Arithmetic.isAtMostZero (Number.float x) = false) :
    check (Number.float x) = .ok () := by
  rw [check, h]
  rfl

/-- A positive finite double passes the check. -/
theorem check_of_pos {x : Float} {q : Rat} (hx : toRat? x = some q) (hpos : 0 < q) :
    check (Number.float x) = .ok () := by
  have hle : Arithmetic.isAtMostZero (Number.float x) = decide (q ≤ 0) := le_float hx toRat?_zero
  exact check_float (hle.trans (decide_eq_false (not_le.2 hpos)))

/-- **The stages of a tempo are exact and as few as can be.**  The loops over a positive finite
double end.  The stages multiply to it, each lies between one half and two and is not one, and
all but the last are the bound on the side of the double; and no list of numbers between the two
bounds with the same product is shorter. -/
theorem stages_exact_and_fewest {x : Float} {q : Rat} (hx : toRat? x = some q) (hpos : 0 < q) :
    check (Number.float x) = .ok () ∧
      ∃ (list : List Number) (values : List Rat),
        stages (Number.float x) = .ok list ∧ EndsWith (Number.float x) list ∧
        list.map Number.toRat? = values.map some ∧
        (∀ v ∈ values, 1 / 2 ≤ v ∧ v ≤ 2 ∧ v ≠ 1) ∧ values.prod = q ∧
        (list = [] ↔ q = 1) ∧
        (2 < q → ∀ stage ∈ list.dropLast, stage = Arithmetic.two) ∧
        (q < 1 / 2 → ∀ stage ∈ list.dropLast, stage = Arithmetic.half) ∧
        ∀ ratios : List ℝ, (∀ r ∈ ratios, 1 / 2 ≤ r ∧ r ≤ 2) → ratios.prod = q →
          list.length ≤ ratios.length := by
  obtain ⟨fast, slow, p, rest, hdivides, hrest, hstages, hends⟩ := exists_divides hx hpos
  refine ⟨check_of_pos hx hpos, stagesOf fast slow p rest, valuesOf fast slow p, hstages, hends,
    map_toRat?_stagesOf hrest, fun v => hdivides.mem_valuesOf, hdivides.prod_valuesOf,
    hdivides.stagesOf_eq_nil_iff, ?_, ?_, ?_⟩
  · intro hq stage hstage
    rw [hdivides.dropLast_of_two_lt hq] at hstage
    exact List.eq_of_mem_replicate hstage
  · intro hq stage hstage
    rw [hdivides.dropLast_of_lt_half hq] at hstage
    exact List.eq_of_mem_replicate hstage
  · intro ratios hratios hprod
    rw [length_stagesOf]
    exact hdivides.fewest hratios hprod

/-- A tempo of ten takes the stages two, two, two and one and a quarter, and three factors are too
few for it. -/
theorem fewest_ten :
    toRat? 10.0 = some 10 ∧
      stages (Number.float 10.0) = .ok [.float 2.0, .float 2.0, .float 2.0, .float 1.25] ∧
      ∀ ratios : List ℝ, (∀ r ∈ ratios, 1 / 2 ≤ r ∧ r ≤ 2) → ratios.prod = 10 →
        4 ≤ ratios.length := by
  have hten : toRat? 10.0 = some 10 := by decide +kernel
  have hstages : stages (Number.float 10.0) =
      .ok [.float 2.0, .float 2.0, .float 2.0, .float 1.25] := by
    decide +kernel
  obtain ⟨-, list, values, hlist, -, -, -, -, -, -, -, hfewest⟩ :=
    stages_exact_and_fewest hten (by norm_num)
  obtain rfl := Except.ok.inj (hstages.symm.trans hlist)
  exact ⟨hten, hstages, fun ratios hratios hprod => hfewest ratios hratios (by simpa using hprod)⟩

end Montage.Tempo
