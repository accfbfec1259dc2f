import Montage.Proofs.Number
import Montage.Proofs.Plan.Numbers
import Montage.Proofs.Plan.Parts

/-!
# The numbers in the plan of an edit with finite settings

With finite settings in range, the numbers that are computed are quotients, the length of the
output less the fade at its end, and the stages of the tempo, which are always between one half
and two.  So all numbers of the plan are finite exactly if the quotients are in the range of
doubles (`Edit.Planned.finite_iff`), and none is not-a-number.
-/

namespace Montage

open Decimal

/-- The stages of a positive finite tempo are finite. -/
theorem Tempo.isFinite_of_stages {x : Float} {q : Rat} {list : List Number}
    (hx : toRat? x = some q) (hq : 0 < q) (h : stages (.float x) = .ok list) :
    ∀ n ∈ list, n.IsFinite := by
  obtain ⟨found, values, hfound, -, hvalues, -⟩ := hasStages_of_pos hx hq
  obtain rfl := Except.ok.inj (hfound.symm.trans h)
  intro n hn
  have hvalue : n.toRat? ∈ values.map some := hvalues ▸ List.mem_map_of_mem hn
  obtain ⟨v, -, hv⟩ := List.mem_map.1 hvalue
  exact ⟨v, hv.symm⟩

namespace Edit

/-- A fade that ends with the output starts within the range exactly if the output ends there. -/
theorem becomes_fadeOutStart {v r : Rat} {length : Number} {fade : Float}
    (h : Number.Becomes v length) (hfade : toRat? fade = some r) (hr : 0 ≤ r) :
    Number.Becomes v (fadeOutStart length (.float fade)) := by
  have hstart (x : Float) : fadeOutStart (Number.float x) (.float fade) =
    if Arithmetic.isPositive (Number.float (x - fade)) then .float (x - fade)
    else Arithmetic.zero := rfl
  cases h with
  | @finite x p hlt hx hp =>
      obtain ⟨s, hs⟩ := (isFinite_iff _).1 (isFinite_sub hx hfade hp hr)
      rw [hstart, Number.isPositive_float hs]
      by_cases hpos : 0 < s
      · rw [decide_eq_true hpos, if_pos rfl]
        exact .finite hlt hs hpos.le
      · rw [decide_eq_false hpos, if_neg Bool.false_ne_true]
        exact .finite hlt Tempo.toRat?_zero le_rfl
  | @infinite x hle hx =>
      have hpack : (Float.Model.pack (.infinity .positive)).unpack = .infinity .positive := rfl
      have hunpack : (x - fade).toModel.unpack = .infinity .positive := by
        rw [unpack_sub, hx]
        rcases unpack_of_nonneg hfade hr with ⟨s, hs⟩ | ⟨m, e, h, hs⟩ <;> rw [hs] <;> exact hpack
      rw [hstart, Number.isPositive_of_infinity hunpack, if_pos rfl]
      exact .infinite hle hunpack

/-- The settings of an edit are finite and in range, and the speed is `q`. -/
structure Ranges (edit : Edit Number) (q : Rat) : Prop where
  speed : ∃ x, edit.speed = .float x ∧ toRat? x = some q
  pos : 0 < q
  volume : edit.volume.IsFinite
  fadeIn : edit.fadeIn.IsFinite
  fadeOut : ∃ x r, edit.fadeOut = .float x ∧ toRat? x = some r ∧ 0 ≤ r

/-- A length that comes from a probe. -/
def IsLength (source : Number) (p : Rat) : Prop :=
  ∃ y, source = .float y ∧ toRat? y = some p ∧ 0 < p

variable {edit : Edit Number} {plan : Plan Number} {stages : List Number} {q : Rat} {n : Number}

theorem Ranges.changesSpeed_eq (h : edit.Ranges q) : edit.changesSpeed = !decide (q = 1) := by
  obtain ⟨x, hspeed, hx⟩ := h.speed
  rw [changesSpeed, hspeed]
  exact congrArg (!·) (Tempo.eq_float hx Tempo.toRat?_one)

theorem Ranges.becomes_timeFactor (h : edit.Ranges q) :
    Number.Becomes (1 / q) (Tempo.timeFactor edit.speed) := by
  obtain ⟨x, hspeed, hx⟩ := h.speed
  rw [hspeed]
  exact Number.becomes_div Tempo.toRat?_one hx one_pos h.pos

theorem Ranges.becomes_outputLength (h : edit.Ranges q) {source : Number} {p : Rat}
    (hsource : IsLength source p) : Number.Becomes (p / q) (edit.outputLength source) := by
  obtain ⟨x, hspeed, hx⟩ := h.speed
  obtain ⟨y, rfl, hy, hp⟩ := hsource
  unfold outputLength
  rw [h.changesSpeed_eq]
  by_cases hone : q = 1
  · -- Nothing is divided at the speed of the source.
    subst hone
    rw [decide_eq_true rfl, div_one]
    exact Number.becomes_self hy hp.le
  · rw [decide_eq_false hone, hspeed]
    exact Number.becomes_div hy hx hp h.pos

theorem Ranges.isFinite_stage (h : edit.Ranges q) (hstages : Tempo.stages edit.speed = .ok stages)
    (hn : n ∈ stages) : n.IsFinite := by
  obtain ⟨x, hspeed, hx⟩ := h.speed
  rw [hspeed] at hstages
  exact Tempo.isFinite_of_stages hx h.pos hstages n hn

/-- The plan of an edit whose settings are in range, for the length of its source if the edit
depends on it. -/
structure Planned (edit : Edit Number) (q : Rat) (sources : Option Number) (stages : List Number)
    (plan : Plan Number) : Prop where
  ranges : edit.Ranges q
  lengths : ∀ source ∈ sources, ∃ p, IsLength source p
  needs : edit.needsLength = sources.isSome
  tempo : edit.changesSpeed = true → edit.sound = .original → Tempo.stages edit.speed = .ok stages
  fills : edit.Fills stages (sources.getD Arithmetic.zero) (sources.map edit.outputLength) plan

theorem map_outputLength {sources : Option Number} (h : edit.needsLength = sources.isSome)
    (hlong : edit.needsLength = true) :
    sources.map edit.outputLength =
      some (edit.outputLength (sources.getD Arithmetic.zero)) := by
  obtain ⟨source, rfl⟩ := Option.isSome_iff_exists.1 (h ▸ hlong)
  rfl

section Planned

variable {sources : Option Number}

/-- A number in the plan of an edit is finite, or it is what becomes of a second or of the length
of the source at the speed of the edit. -/
theorem Planned.number_cases (h : edit.Planned q sources stages plan) (hn : n ∈ plan.numbers) :
    n.IsFinite ∨ ∃ p, (p = 1 ∨ ∃ source ∈ sources, IsLength source p) ∧
      Number.Becomes (p / q) n := by
  obtain ⟨fade, r, hfadeOut, hfade, hr⟩ := h.ranges.fadeOut
  rcases h.fills.number_cases (map_outputLength h.needs) hn with
    ⟨k, rfl⟩ | hsetting | ⟨hchanges, rfl | ⟨hsound, hstage⟩⟩ | ⟨l, hl, hn⟩
  · exact .inl ⟨k, rfl⟩
  · refine .inl ?_
    simp only [List.mem_cons, List.not_mem_nil, or_false] at hsetting
    rcases hsetting with rfl | rfl | rfl
    · exact h.ranges.volume
    · exact h.ranges.fadeIn
    · exact ⟨r, by rw [hfadeOut]; exact hfade⟩
  · exact .inr ⟨1, .inl rfl, h.ranges.becomes_timeFactor⟩
  · exact .inl (h.ranges.isFinite_stage (h.tempo hchanges hsound) hstage)
  · obtain ⟨source, hsource, rfl⟩ := Option.mem_map.1 hl
    obtain ⟨p, hp⟩ := h.lengths source hsource
    have hbecomes := h.ranges.becomes_outputLength hp
    refine .inr ⟨p, .inr ⟨source, hsource, hp⟩, ?_⟩
    rcases hn with rfl | rfl
    · exact hbecomes
    · rw [hfadeOut]
      exact becomes_fadeOutStart hbecomes hfade hr

/-- The numbers in the plan of an edit are finite exactly if a second and the length of the
source, if it is asked for, are in range at the speed of the edit. -/
theorem Planned.finite_iff (h : edit.Planned q sources stages plan) :
    (∀ n ∈ plan.numbers, n.IsFinite) ↔
      ∀ p, (p = 1 ∨ ∃ source ∈ sources, IsLength source p) → p / q < overflowFrom := by
  refine ⟨fun hfinite p hp => ?_, fun hrange n hn => ?_⟩
  · rcases hp with rfl | ⟨source, hsource, hp⟩
    · by_cases hone : q = 1
      · rw [hone, div_one]
        exact lt_overflowFrom Tempo.toRat?_one
      · have hfactor : Tempo.timeFactor edit.speed ∈ plan.timeFactors := by
          rw [h.fills.timeFactors_eq, h.ranges.changesSpeed_eq, decide_eq_false hone]
          exact List.mem_singleton_self _
        exact h.ranges.becomes_timeFactor.isFinite_iff.1
          (hfinite _ (Plan.mem_numbers_of_mem_timeFactors hfactor))
    · have hlength := h.fills.length_mem_numbers (Option.mem_map_of_mem edit.outputLength hsource)
      exact (h.ranges.becomes_outputLength hp).isFinite_iff.1 (hfinite _ hlength)
  · rcases h.number_cases hn with hfinite | ⟨p, hp, hbecomes⟩
    · exact hfinite
    · exact hbecomes.isFinite_iff.2 (hrange p hp)

/-- No number in the plan of an edit is not-a-number. -/
theorem Planned.finite_or_infinite (h : edit.Planned q sources stages plan)
    (hn : n ∈ plan.numbers) : n.IsFinite ∨ n.IsInfinite := by
  rcases h.number_cases hn with hfinite | ⟨p, -, hbecomes⟩
  · exact .inl hfinite
  · exact hbecomes.finite_or_infinite

/-- The times are scaled by a positive factor. -/
theorem Planned.isPositive_factor (h : edit.Planned q sources stages plan)
    (hn : n ∈ plan.timeFactors) : Arithmetic.isPositive n = true := by
  obtain ⟨x, hspeed, hx⟩ := h.ranges.speed
  rw [h.fills.timeFactors_eq] at hn
  split at hn
  · rw [List.mem_singleton.1 hn, hspeed]
    exact Number.isPositive_one_div hx h.ranges.pos
  · cases hn

end Planned

end Edit

namespace Plan

variable {plan : Plan Number}

/-- A plan that is written with whole numbers and text only, and knows no length. -/
theorem isFinite_of_isWhole (hfilters : ∀ filter ∈ plan.filters, filter.IsWhole)
    (hduration : plan.options.duration = none) (hestimate : plan.estimate = none) :
    (∀ n ∈ plan.numbers, n.IsFinite) ∧ plan.timeFactors = [] := by
  refine ⟨fun n hn => ?_, Filter.timeFactors_whole hfilters⟩
  rw [numbers, hduration, hestimate, Option.toList_none, List.append_nil, List.append_nil] at hn
  obtain ⟨k, rfl⟩ := Filter.whole_of_mem_numbersOf hfilters hn
  exact ⟨k, rfl⟩

/-- A change of speed is computed with one number and its stages. -/
theorem isFinite_of_changeSpeed {clip : Clip} {ratio : Float} {target : String} {q : Rat}
    (h : changeSpeed clip (.float ratio) target = .ok plan) (hx : toRat? ratio = some q)
    (hpos : 0 < q) (hslow : 1 / q < overflowFrom) :
    (∀ n ∈ plan.numbers, n.IsFinite) ∧
      plan.timeFactors = [Tempo.timeFactor (.float ratio)] := by
  obtain ⟨timing, tempo, htiming, htempo, hplan⟩ := of_changeSpeed h
  obtain rfl : timing = .positional "setpts" [.scaledTime (Tempo.timeFactor (.float ratio))] := by
    obtain ⟨-, -, htiming⟩ := Ends.of_bind_ok htiming
    exact (Except.ok.inj htiming).symm
  obtain ⟨stages, hstages, rfl⟩ := Edit.of_tempo htempo
  have hfactor := (Number.becomes_div Tempo.toRat?_one hx one_pos hpos).isFinite_iff.2 hslow
  have hfilters : plan.filters =
      [.positional "setpts" [.scaledTime (Tempo.timeFactor (.float ratio))]] ++
        Tempo.filtersOf stages :=
    filters_sourceGraph (by rw [hplan])
  refine ⟨fun n hn => ?_, ?_⟩
  · have hnumbers : plan.numbers = Tempo.timeFactor (.float ratio) :: stages := by
      rw [numbers, hfilters, Filter.numbersOf_append, Tempo.numbersOf_filtersOf, hplan]
      exact (List.append_nil _).trans (List.append_nil _)
    rcases List.mem_cons.1 (hnumbers ▸ hn) with rfl | hstage
    · exact hfactor
    · exact Tempo.isFinite_of_stages hx hpos hstages n hstage
  · rw [timeFactors, hfilters, List.filterMap_append, Filter.timeFactors_filtersOf]
    rfl

end Plan

end Montage
