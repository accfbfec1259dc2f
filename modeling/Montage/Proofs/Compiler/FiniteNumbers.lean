import Montage.Proofs.Compiler.Probing
import Montage.Proofs.Plan.FiniteNumbers
import Montage.Proofs.Request.Fields

/-!
# When the numbers of a compiled plan are finite

A request is refused if one of its numbers is not finite.  The quotients that a plan is computed
with are not looked at again.  A change of speed is bounded from below, so that its quotients
stay in range, but the speed of a custom edit is not, and a very slow one writes infinities into
its plan (`numbers_finite_iff`).
-/

namespace Montage

open Decimal

namespace Compiler

variable {c : Compiler} {request : Request} {host : Host} {plan : Plan Number}
  {probe : Clip → Action (Option Number)}

/-- The settings of a custom edit that passes its check are in range. -/
theorem ranges_of_readEdit {sound : Option Sound} {edit : Edit Number}
    (hedit : readEdit request sound = .ok edit) (hcheck : edit.check = .ok ()) :
    ∃ q, toRat? (speedOf request) = some q ∧ edit.Ranges q := by
  obtain ⟨hspeed, -⟩ := numbers_of_readEdit hedit
  obtain ⟨speed, mute, fadeIn, fadeOut, volume, hread⟩ := settings_of_readEdit hedit
  obtain ⟨hpos, -, -, hnonneg, -⟩ := Edit.of_check hcheck
  obtain rfl : speed = speedOf request := Number.float.inj (hread.speed.symm.trans hspeed)
  obtain ⟨q, hq⟩ := (isFinite_iff _).1 (Request.isFinite_of_speed hread.readSpeed)
  have hone : (1.0 : Float).isFinite = true := rfl
  have hzero : (0.0 : Float).isFinite = true := rfl
  obtain ⟨v, hv⟩ := (isFinite_iff _).1 (Request.isFinite_getD hread.readVolume hone)
  obtain ⟨i, hi⟩ := (isFinite_iff _).1 (Request.isFinite_getD hread.readFadeIn hzero)
  obtain ⟨r, hr⟩ := (isFinite_iff _).1 (Request.isFinite_getD hread.readFadeOut hzero)
  rw [hspeed] at hpos
  rw [hread.fadeOut] at hnonneg
  refine ⟨q, hq, ⟨_, hspeed, hq⟩, Tempo.pos_of_check hq (Tempo.check_float hpos),
    ⟨v, by rw [hread.volume]; exact hv⟩, ⟨i, by rw [hread.fadeIn]; exact hi⟩,
    ⟨_, r, hread.fadeOut, hr, ?_⟩⟩
  have hlt := (Tempo.lt_float hr Tempo.toRat?_zero).symm.trans hnonneg
  exact not_lt.1 (of_decide_eq_false hlt)

/-- The probe is called, and its answer is a usable length. -/
def Measures (c : Compiler) (request : Request) (host : Host)
    (probe : Clip → Action (Option Number)) (source : Number) : Prop :=
  ∃ clip before answer, c.Asks request host clip before ∧
    (probe clip).result before = .ok answer ∧ usableLength clip answer = .ok source

/-- The probe measures one length at most. -/
theorem Measures.unique {source other : Number} (h : c.Measures request host probe source)
    (h' : c.Measures request host probe other) : other = source := by
  obtain ⟨clip, before, answer, hasks, hanswer, husable⟩ := h
  obtain ⟨clip', before', answer', hasks', hanswer', husable'⟩ := h'
  obtain ⟨rfl, rfl⟩ := hasks.unique hasks'
  obtain rfl := Except.ok.inj (hanswer.symm.trans hanswer')
  exact Except.ok.inj (husable'.symm.trans husable)

/-- A finite answer that is a usable length is a positive double. -/
theorem Measures.isLength {source : Number}
    (hprobe : ∀ clip before answer, (probe clip).result before = .ok (some answer) →
      answer.IsFinite)
    (h : c.Measures request host probe source) : ∃ p, Edit.IsLength source p := by
  obtain ⟨clip, before, answer, -, hanswer, husable⟩ := h
  obtain ⟨d, rfl, hpositive, hfits, rfl⟩ := Edit.of_usableLength husable
  obtain ⟨r, hr⟩ := hprobe clip before d hanswer
  cases d with
  | int n =>
      have hfinite : (Float.ofInt n).isFinite = true := by
        by_contra hinfinite
        simp [Arithmetic.fits, Number.toFloat?, hinfinite, Except.toBool] at hfits
      obtain ⟨p, hp, hpos⟩ := toRat?_ofInt_pos (Tempo.pos_of_int hpositive) hfinite
      exact ⟨p, _, rfl, hp, hpos⟩
  | float x => exact ⟨r, x, rfl, hr, Tempo.pos_of_check hr (Tempo.check_float hpositive)⟩

/-- The plan of a custom request is composed of its edit, for the length that the probe measures
if it is called. -/
theorem composed_of_compile
    (hoperation : Operation.ofValue (request.field ["operation"]) = .ok .custom)
    (h : (c.compile request probe).result host = .ok plan) :
    ∃ clip sound edit target, ∃ sources : Option Number,
      readEdit request sound = .ok edit ∧ edit.check = .ok () ∧
        edit.compose clip target (sources.map edit.outputLength) = .ok plan ∧
        edit.needsLength = sources.isSome ∧
        ∀ source, c.Measures request host probe source ↔ source ∈ sources := by
  have hrun (x : Except Failure (Plan Number) × Host)
      (hx : (c.compile request probe).runOn host = x) : x.1 = .ok plan := by
    rw [← hx]
    exact h
  rcases draft_of_custom c host hoperation with
    ⟨-, clip, sound, edit, target, -, -, hedit, hdraft⟩ | ⟨-, failure, hfailure⟩
  · refine ⟨clip, sound, edit, target, ?_⟩
    unfold Edit.plan at hdraft
    cases hcheck : edit.check with
    | error failure =>
        rw [hcheck] at hdraft
        obtain ⟨printed, hcompile⟩ := compile_of_settled hdraft
        cases hrun _ (hcompile probe)
    | ok =>
        rw [hcheck] at hdraft
        cases hneeds : edit.needsLength with
        | false =>
            rw [hneeds] at hdraft
            obtain ⟨printed, hcompile⟩ := compile_of_settled hdraft
            refine ⟨none, hedit, rfl, hrun _ (hcompile probe), rfl, fun source => ?_⟩
            refine iff_of_false ?_ nofun
            rintro ⟨asked, before, answer, hasks, -⟩
            exact not_asks_of_constant hcompile hasks
        | true =>
            rw [hneeds] at hdraft
            obtain ⟨printed, hcompile⟩ := compile_of_awaiting hdraft
            have hresult := hrun _ (hcompile probe)
            obtain ⟨answer, after, hanswer, hresult⟩ := Action.of_result_bind hresult
            obtain ⟨source, husable, hcomposed⟩ := Ends.of_bind_ok hresult
            have hmeasures : c.Measures request host probe source :=
              ⟨clip, _, answer, ⟨_, hcompile⟩, by rw [Action.result, hanswer], husable⟩
            refine ⟨some source, hedit, rfl, hcomposed, rfl, fun other => ?_⟩
            exact ⟨fun hother => congrArg some (hmeasures.unique hother).symm,
              fun hother => Option.some.inj hother ▸ hmeasures⟩
  · obtain ⟨printed, hcompile⟩ := compile_of_error hfailure
    cases hrun _ (hcompile probe)

/-- What the probe measures, the plan of a custom request is planned with. -/
theorem planned_of_compile
    (hprobe : ∀ clip before answer, (probe clip).result before = .ok (some answer) →
      answer.IsFinite)
    (hoperation : Operation.ofValue (request.field ["operation"]) = .ok .custom)
    (h : (c.compile request probe).result host = .ok plan) :
    ∃ edit q sources stages, toRat? (speedOf request) = some q ∧
      (∀ source, c.Measures request host probe source ↔ source ∈ sources) ∧
      Edit.Planned edit q sources stages plan := by
  obtain ⟨clip, sound, edit, target, sources, hedit, hcheck, hcompose, hneeds, hmeasures⟩ :=
    composed_of_compile hoperation h
  obtain ⟨q, hq, hranges⟩ := ranges_of_readEdit hedit hcheck
  obtain ⟨video, audio, hvideo, haudio, hplan⟩ := Edit.of_compose hcompose
  obtain rfl := Edit.eq_videoPath hvideo
  obtain ⟨stages, hstages, rfl⟩ := Edit.eq_keptPath (Edit.map_outputLength hneeds) haudio
  refine ⟨edit, q, sources, stages, hq, hmeasures, hranges, fun source hsource => ?_, hneeds,
    hstages, by rw [hplan], by rw [hplan], by rw [hplan]⟩
  exact Measures.isLength hprobe ((hmeasures source).2 hsource)

/-- The speed of a change of speed is so large that one divided by it is in range. -/
theorem inv_speed_lt {v : Value} {name : Option String} {high : Option Float} {ratio : Float}
    (h : Request.speed v name (some speedFloor) high = .ok ratio) :
    ∃ q, toRat? ratio = some q ∧ 0 < q ∧ 1 / q < overflowFrom := by
  obtain ⟨q, hq⟩ := (isFinite_iff _).1 (Request.isFinite_of_speed h)
  have hfloor : toRat? speedFloor = some (3602879701896397 / 36028797018963968) := by
    decide +kernel
  have habove := (le_iff hq hfloor).not.1 (Request.not_le_of_speed h)
  have hpos : 0 < q := by linarith
  have hlarge : (16 : Rat) < overflowFrom := by
    have hpower : (1 : Rat) ≤ 2 ^ (970 : Int) := one_le_zpow₀ (by norm_num) (by norm_num)
    unfold overflowFrom
    generalize (2 : Rat) ^ (970 : Int) = unit at hpower
    linarith
  refine ⟨q, hq, hpos, (?_ : 1 / q < 16).trans hlarge⟩
  rw [div_lt_iff₀ hpos]
  linarith

/-- Every operation but a custom edit plans with finite numbers only. -/
theorem finite_of_perform {operation : Operation} {draft : Draft Number}
    (hcustom : operation ≠ .custom)
    (h : (c.perform request operation).result host = .ok draft) (hplan : draft.Becomes plan) :
    (∀ n ∈ plan.numbers, n.IsFinite) ∧
      ∀ factor ∈ plan.timeFactors, Arithmetic.isPositive factor = true := by
  have hunscaled (hwhole : (∀ n ∈ plan.numbers, n.IsFinite) ∧ plan.timeFactors = []) :
      (∀ n ∈ plan.numbers, n.IsFinite) ∧
        ∀ factor ∈ plan.timeFactors, Arithmetic.isPositive factor = true :=
    ⟨hwhole.1, by rw [hwhole.2]; exact List.forall_mem_nil _⟩
  cases operation with
  | custom => exact absurd rfl hcustom
  | speed =>
      obtain ⟨clip, target, ratio, -, hratio, hmade⟩ :=
        (changeSpeed_follows request).of_ok (eq_of_settled h hplan)
      obtain ⟨q, hq, hpos, hslow⟩ := inv_speed_lt hratio
      obtain ⟨hfinite, hfactors⟩ := Plan.isFinite_of_changeSpeed hmade.symm hq hpos hslow
      refine ⟨hfinite, ?_⟩
      rw [hfactors]
      exact List.forall_mem_singleton.2 (Number.isPositive_one_div hq hpos)
  | convert | mute | addAudio =>
      cases made_of_perform h hplan
      exact hunscaled (Plan.isFinite_of_isWhole (List.forall_mem_nil _) rfl rfl)
  | stitch =>
      cases made_of_perform h hplan
      exact hunscaled (Plan.isFinite_of_isWhole (Plan.isWhole_of_joinGraph rfl) rfl rfl)

/-- The request is a custom edit so slow that a second, or the length of its clip if it is asked
for, is out of the range of doubles at its speed. -/
def Overflows (c : Compiler) (request : Request) (host : Host)
    (probe : Clip → Action (Option Number)) : Prop :=
  Operation.ofValue (request.field ["operation"]) = .ok .custom ∧
    ∃ q p, toRat? (speedOf request) = some q ∧
      (p = 1 ∨ ∃ source, c.Measures request host probe source ∧ Edit.IsLength source p) ∧
      overflowFrom ≤ p / q

/-- **When the numbers of a plan are finite.**  Let the probe answer with finite numbers.  Then no
number in a compiled plan is not-a-number, the times are scaled by positive factors only, and all
numbers are finite unless the request is a custom edit so slow that a second, or the length that
the probe has measured, is out of range at its speed. -/
theorem numbers_finite_iff
    (hprobe : ∀ clip before answer, (probe clip).result before = .ok (some answer) →
      answer.IsFinite)
    (h : (c.compile request probe).result host = .ok plan) :
    (∀ n ∈ plan.numbers, n.IsFinite ∨ n.IsInfinite) ∧
      (∀ factor ∈ plan.timeFactors, Arithmetic.isPositive factor = true) ∧
      ((∀ n ∈ plan.numbers, n.IsFinite) ↔ ¬ c.Overflows request host probe) := by
  obtain ⟨operation, draft, hoperation, hdraft, hplan⟩ := draft_of_compile h
  by_cases hcustom : operation = .custom
  · subst hcustom
    obtain ⟨edit, q, sources, stages, hq, hmeasures, hplanned⟩ :=
      planned_of_compile hprobe hoperation h
    refine ⟨fun n => hplanned.finite_or_infinite, fun factor => hplanned.isPositive_factor, ?_⟩
    rw [hplanned.finite_iff]
    constructor
    · rintro hrange ⟨-, q', p, hq', hp, hlarge⟩
      obtain rfl := Option.some.inj (hq.symm.trans hq')
      exact absurd (hrange p (by simpa only [hmeasures] using hp)) (not_lt.2 hlarge)
    · intro hnot p hp
      by_contra hlarge
      exact hnot ⟨hoperation, q, p, hq, by simpa only [hmeasures] using hp, not_lt.1 hlarge⟩
  · obtain ⟨hfinite, hfactors⟩ := finite_of_perform hcustom hdraft hplan
    refine ⟨fun n hn => .inl (hfinite n hn), hfactors, iff_of_true hfinite ?_⟩
    rintro ⟨hsame, -⟩
    exact hcustom (Except.ok.inj (hoperation.symm.trans hsame))

/-- The request to slow a mute clip down as far as a double can say. -/
def slowRequest : Request :=
  [(.text "operation", .text "custom"), (.text "filename", .text "/a.mp4"),
    (.text "mute", .bool true), (.text "speed", .number (.float 5e-324))]

/-- A probe that gives the same length for all clips. -/
def answering (seconds : Float) (_ : Clip) : Action (Option Number) := return some (.float seconds)

/-- Its plan holds an infinity, although its speed and every answer of the probe are finite. -/
theorem numbers_finite_iff_slow :
    ∃ plan, (compile ⟨{}, []⟩ slowRequest (answering 8.0)).result clipHost = .ok plan ∧
      ∃ n ∈ plan.numbers, n.IsInfinite := by
  obtain ⟨plan, hplan⟩ := Ends.exists_of_toBool
    (x := (compile ⟨{}, []⟩ slowRequest (answering 8.0)).result clipHost) (by decide +kernel)
  have hprobe (clip : Clip) (before : Host) (answer : Number)
      (h : (answering 8.0 clip).result before = .ok (some answer)) : answer.IsFinite := by
    obtain rfl := Option.some.inj (Except.ok.inj h)
    exact ⟨8, by decide +kernel⟩
  obtain ⟨hnumbers, -, hfinite⟩ := numbers_finite_iff hprobe hplan
  have hoverflows : Overflows ⟨{}, []⟩ slowRequest clipHost (answering 8.0) := by
    have hspeed : toRat? (speedOf slowRequest) = some (1 / 2 ^ 1074) := by decide +kernel
    refine ⟨rfl, _, 1, hspeed, .inl rfl, ?_⟩
    rw [one_div_one_div, ← zpow_natCast]
    exact overflowFrom_le
  obtain ⟨n, hn⟩ := not_forall.1 fun h => hfinite.1 h hoverflows
  obtain ⟨hmem, hnot⟩ := Classical.not_imp.1 hn
  exact ⟨plan, hplan, n, hmem, (hnumbers n hmem).resolve_left hnot⟩

end Compiler

end Montage
