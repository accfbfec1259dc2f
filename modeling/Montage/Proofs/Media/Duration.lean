import Montage.Proofs.Decimal.Order
import Montage.Proofs.Failure
import Montage.Proofs.Json.Writable
import Montage.Proofs.Media
import Montage.Proofs.Tempo.Endless

/-!
# The length of a clip

A probe should give a positive number, or fail with a failure that names the clip.  The length
is asked only whether it is at most zero, which neither not-a-number nor the positive infinity
is, and a whole number that is too large for a double is not refused but crashes, as does a
report that breaks off.  Apart from these a length is usable or refused, whatever the tool does
(`duration_usable_iff`).
-/

namespace Montage

/-- The value of a field fits where the whole request does. -/
theorem Request.fits_field {levels : Nat} {request : Request}
    (h : Value.EntriesFit levels request) (names : List String) :
    (request.field names).Fits levels := by
  induction names with
  | nil => exact ⟨rfl, Nat.zero_le _⟩
  | cons name names ih =>
      rw [field]
      split
      · next v hv =>
          obtain ⟨entry, hfound, rfl⟩ := Option.map_eq_some_iff.1 hv
          exact (h entry (List.mem_of_find?_eq_some hfound)).2
      · exact ih

/-- What is not read as a double and not refused is a whole number that is too large. -/
theorem Value.overflows_of_error {v : Value} {failure : Failure} (h : v.toFloat? = .error failure) :
    v.Overflows := by
  cases v with
  | number n =>
      cases n with
      | int n =>
          refine ⟨n, rfl, eq_false_of_ne_true fun hfinite => ?_⟩
          rw [toFloat?_int hfinite] at h
          cases h
      | float x => cases h
  | null | bool | text | bytes | date | moment | list | pair | map | set => cases h

namespace Media

open Float.Model (UnpackedFloat)

/-- A failure of the probe that names the clip. -/
def Names (clip : Clip) (failure : Failure) : Prop := ∃ cause, failure = .probe clip.path cause

/-- What is promised of a length: it is a positive number, or the probe fails and names the
clip. -/
def Usable (clip : Clip) : Except Failure Float → Prop :=
  Ends (fun x => ∃ q, Decimal.toRat? x = some q ∧ 0 < q) (Names clip)

/-- Not-a-number, or the positive infinity. -/
def Endless (x : Float) : Prop := x.isNaN = true ∨ x.isInf = true ∧ 0.0 < x

/-- Not-a-number and the positive infinity are what is neither finite nor at most zero. -/
theorem endless_iff (x : Float) : Endless x ↔ x.isFinite = false ∧ ¬ x ≤ 0.0 := by
  have hnan : x.isNaN = x.toModel.unpack.isNaN := rfl
  have hinf : x.isInf = x.toModel.unpack.isInf := rfl
  have hfinite : x.isFinite = x.toModel.unpack.isFinite := rfl
  have hle : x ≤ 0.0 ↔ x.toModel.unpack.le (.zero .positive) = true := decide_eq_true_iff
  have hlt : 0.0 < x ↔ UnpackedFloat.lt (.zero .positive) x.toModel.unpack = true :=
    decide_eq_true_iff
  rw [Endless, hnan, hinf, hfinite, hle, hlt]
  cases x.toModel.unpack with
  | notANumber | zero s | finite s m e hm => simp [UnpackedFloat.isNaN, UnpackedFloat.isInf,
      UnpackedFloat.isFinite, UnpackedFloat.le, UnpackedFloat.compare]
  | infinity s => cases s <;> decide

/-- A double that is not at most zero exceeds zero, unless it has no end. -/
theorem pos_of_not_le {x : Float} (hle : ¬ x ≤ 0.0) (hx : ¬ Endless x) :
    ∃ q, Decimal.toRat? x = some q ∧ 0 < q := by
  have hfinite : x.isFinite = true := by
    by_contra hnot
    exact hx ((endless_iff x).2 ⟨eq_false_of_ne_true hnot, hle⟩)
  obtain ⟨q, hq⟩ := (Decimal.isFinite_iff x).1 hfinite
  have hzero : Decimal.toRat? 0.0 = some 0 := by decide +kernel
  exact ⟨q, hq, not_le.1 ((Decimal.le_iff hq hzero).not.1 hle)⟩

/-- The report of a tool that ended can be shown, unless it is refused or nested too deep. -/
theorem readReport_spec (clip : Clip) (code : Int) (stdout stderr : String) :
    Ends (Value.EntriesFit callLimit)
      (fun failure => Names clip failure ∨
        code = 0 ∧ Json.NestsTooDeep stdout ∧ failure = .fault .endless)
      (readReport clip code stdout stderr) := by
  unfold readReport
  simp only
  split
  · split
    · exact .inl ⟨_, rfl⟩
    · exact .inl ⟨_, rfl⟩
  · next hcode =>
      split
      · next remaining hread => exact .inr ⟨by simpa using hcode, ⟨remaining, hread⟩, rfl⟩
      · exact .inl ⟨_, rfl⟩
      · next entries hread => exact (Json.fits_of_read hread).entries
      · exact .inl ⟨_, rfl⟩

/-- The description of a container can be shown, unless it is refused or the report breaks
off. -/
theorem format_spec (config : Config) (clip : Clip) (host : Host) :
    Ends (Value.EntriesFit callLimit)
      (fun failure => Names clip failure ∨ BreaksReport config clip host.prober failure)
      ((format config clip).result host) := by
  rw [result_format]
  cases hended : Action.outcomeOf (command config clip) host.prober config.timeout with
  | error failure => exact .inr (.run (Action.outcomeOf_eq_error_iff.1 hended))
  | ok outcome =>
      have hreport : Ends (Value.EntriesFit callLimit)
          (fun failure => Names clip failure ∨ BreaksReport config clip host.prober failure)
          (reportOf config clip outcome) := by
        cases outcome with
        | refused reason => exact .inl ⟨_, rfl⟩
        | timedOut => exact .inl ⟨_, rfl⟩
        | ended code stdout stderr =>
            refine (readReport_spec clip code stdout stderr).mono (fun _ h => h) ?_
            rintro failure (hnames | ⟨rfl, hdeep, rfl⟩)
            · exact .inl hnames
            · exact .inr (.nested hended hdeep)
      refine hreport.bind fun report hfits => ?_
      unfold formatOf
      split
      · next entries hentries =>
          have hfield := Request.fits_field hfits ["format"]
          rw [hentries] at hfield
          exact hfield.entries
      · exact .inl ⟨_, rfl⟩

/-- What a length comes to that cannot be read as a double. -/
theorem durationOf_of_overflows {clip : Clip} {format : Request}
    (h : (format.field ["duration"]).Overflows) :
    durationOf clip format = .error (.fault .tooLarge) :=
  Ends.error_bind (Value.toFloat?_of_overflows h)

/-- A length that has no end is returned as it is. -/
theorem durationOf_of_endless {clip : Clip} {format : Request} {x : Float}
    (hread : (format.field ["duration"]).toFloat? = .ok (some x)) (hx : Endless x) :
    durationOf clip format = .ok x := by
  unfold durationOf
  exact (Ends.ok_bind hread).trans (if_neg ((endless_iff x).1 hx).2)

/-- Any other length is usable. -/
theorem durationOf_spec {clip : Clip} {format : Request}
    (hshow : (format.field ["duration"]).isUnshowable = false)
    (hlarge : ¬ (format.field ["duration"]).Overflows)
    (hend : ∀ x, (format.field ["duration"]).toFloat? = .ok (some x) → ¬ Endless x) :
    Usable clip (durationOf clip format) := by
  unfold durationOf
  simp only
  cases hread : (format.field ["duration"]).toFloat? with
  | error failure => exact absurd (Value.overflows_of_error hread) hlarge
  | ok r =>
      cases r with
      | none =>
          rw [Value.quoted, Value.shownAs_of_showable (Bool.eq_false_iff.1 hshow)]
          exact ⟨_, rfl⟩
      | some x =>
          change Usable clip (if x ≤ 0.0 then _ else _)
          split
          · exact ⟨_, rfl⟩
          · next hle => exact pos_of_not_le hle (hend x hread)

/-- What the tool tells about the length of a clip, if it tells about the container. -/
def Tells (config : Config) (clip : Clip) (host : Host) (v : Value) : Prop :=
  ∃ entries, (format config clip).result host = .ok entries ∧
    Request.field entries ["duration"] = v

/-- **A length is a positive number or a failure that names the clip,** unless the report breaks
off, or the length is given as a whole number that is too large for a double, which crashes, or
as something that is read as not-a-number or as the positive infinity, which is returned. -/
theorem duration_usable_iff (config : Config) (clip : Clip) (host : Host) :
    let outcome := (duration config clip).result host
    (Usable clip outcome ↔ (∀ failure, ¬ BreaksReport config clip host.prober failure) ∧
      ∀ v, Tells config clip host v →
        ¬ v.Overflows ∧ ∀ x, v.toFloat? = .ok (some x) → ¬ Endless x) ∧
    (∀ failure, BreaksReport config clip host.prober failure → outcome = .error failure) ∧
    (∀ v, Tells config clip host v → v.Overflows → outcome = .error (.fault .tooLarge)) ∧
    ∀ v x, Tells config clip host v → v.toFloat? = .ok (some x) → Endless x → outcome = .ok x := by
  intro outcome
  have houtcome : outcome = (format config clip).result host >>= durationOf clip :=
    Action.result_bind_lift ..
  have hbreaks (failure : Failure) (h : BreaksReport config clip host.prober failure) :
      outcome = .error failure := by
    rw [houtcome, Ends.error_bind (result_of_breaksReport h)]
  have hlarge (v : Value) (hv : Tells config clip host v) (h : v.Overflows) :
      outcome = .error (.fault .tooLarge) := by
    obtain ⟨entries, hentries, rfl⟩ := hv
    rw [houtcome, Ends.ok_bind hentries]
    exact durationOf_of_overflows h
  have hendless (v : Value) (x : Float) (hv : Tells config clip host v)
      (hread : v.toFloat? = .ok (some x)) (hx : Endless x) : outcome = .ok x := by
    obtain ⟨entries, hentries, rfl⟩ := hv
    rw [houtcome, Ends.ok_bind hentries]
    exact durationOf_of_endless hread hx
  refine ⟨⟨fun husable => ⟨fun failure h => ?_, fun v hv => ⟨fun h => ?_, fun x hread hx => ?_⟩⟩,
    fun ⟨hwhole, htold⟩ => ?_⟩, hbreaks, hlarge, hendless⟩
  · -- A report that breaks off is no failure of the probe.
    obtain ⟨fault, rfl⟩ := h.exists_fault
    rw [hbreaks _ h] at husable
    obtain ⟨cause, hcause⟩ := husable
    cases hcause
  · -- Nor is a crash.
    rw [hlarge v hv h] at husable
    obtain ⟨cause, hcause⟩ := husable
    cases hcause
  · -- What has no end stands for no number.
    rw [hendless v x hv hread hx] at husable
    obtain ⟨q, hq, -⟩ := husable
    have hfinite := (Decimal.isFinite_iff x).2 ⟨q, hq⟩
    rw [((endless_iff x).1 hx).1] at hfinite
    cases hfinite
  · have hformat := format_spec config clip host
    rw [houtcome]
    cases hentries : (format config clip).result host with
    | error failure =>
        rw [hentries] at hformat
        rcases hformat with hnames | hbroken
        · exact hnames
        · exact absurd hbroken (hwhole failure)
    | ok entries =>
        rw [hentries] at hformat
        obtain ⟨hfits, hends⟩ := htold _ ⟨entries, hentries, rfl⟩
        exact durationOf_spec (Request.fits_field hformat _).isUnshowable hfits hends

/-- A report that does not know the length. -/
def unsureReport : String := "\x7b\"format\":\x7b\"duration\":\"nan\"\x7d\x7d"

set_option maxRecDepth 4000 in
theorem read_unsureReport : Json.read unsureReport =
    .ok (.map [(.text "format", .map [(.text "duration", .text "nan")])]) := by
  unfold unsureReport
  cbv

/-- A length that the tool does not know is returned as if it were known. -/
theorem duration_usable_iff_unsure :
    Tells {} ⟨"a.mp4", "/a.mp4"⟩ { prober := { stdout := unsureReport } } (.text "nan") ∧
      (duration {} ⟨"a.mp4", "/a.mp4"⟩).result { prober := { stdout := unsureReport } } =
        .ok (0.0 / 0.0) := by
  have hreport : reportOf {} ⟨"a.mp4", "/a.mp4"⟩ (.ended 0 unsureReport "") =
      .ok [(.text "format", .map [(.text "duration", .text "nan")])] := by
    simp only [reportOf, readReport, read_unsureReport]
    rfl
  have htells : Tells {} ⟨"a.mp4", "/a.mp4"⟩ { prober := { stdout := unsureReport } }
      (.text "nan") := by
    refine ⟨[(.text "duration", .text "nan")], ?_, rfl⟩
    have hsendable : Action.isSendable (command {} ⟨"a.mp4", "/a.mp4"⟩) = true := by decide
    have hended : Action.outcomeOf (command {} ⟨"a.mp4", "/a.mp4"⟩) { stdout := unsureReport }
        none = .ok (.ended 0 unsureReport "") := by
      rw [Action.outcomeOf, hsendable]
      rfl
    rw [result_format, Ends.ok_bind hended, hreport]
    rfl
  have hread : (Value.text "nan").toFloat? = .ok (some (0.0 / 0.0)) := rfl
  have hendless : Endless (0.0 / 0.0) := .inl (by decide +kernel)
  have hspec := duration_usable_iff {} ⟨"a.mp4", "/a.mp4"⟩ { prober := { stdout := unsureReport } }
  exact ⟨htells, hspec.2.2.2 _ _ htells hread hendless⟩

end Media

end Montage
