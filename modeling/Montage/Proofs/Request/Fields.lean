import Montage.Proofs.Crash
import Montage.Proofs.Ends
import Montage.Proofs.Json.Reader
import Montage.Request.Fields

/-!
# What the readers of fields cannot bear

A reader refuses what it does not understand.  Some values it cannot even refuse: a whole
number too large for a double where a number is read, and where the value has to be shown
one that holds a whole number with too many digits or collections nested too deep.  A list of
names may be a text that nests them too deep.  Each reader crashes on exactly those.
-/

namespace Montage

namespace Value

/-- A whole number to which no double is near. -/
def Overflows (v : Value) : Prop :=
  ∃ n : Int, v = .number (.int n) ∧ (Float.ofInt n).isFinite = false

/-- A value on which the reading of a number crashes: the number is too large, or the value
is no number and cannot be shown. -/
def BreaksNumber (v : Value) : Prop :=
  v.Overflows ∨ (v.number? = none ∧ v.isUnshowable = true)

/-- A value on which the reading of a switch crashes: it is no number and cannot be shown. -/
def BreaksSwitch (v : Value) : Prop := v.number? = none ∧ v.isUnshowable = true

/-- A value on which the reading of a list of names crashes: it is a text in which lists or
mappings are nested too deep. -/
def BreaksNames (v : Value) : Prop := ∃ s, v = .text s ∧ Json.NestsTooDeep s

theorem isUnshowable_iff {v : Value} :
    v.isUnshowable = true ↔ callLimit < v.depth ∨ v.hasLongNumber = true := by
  rw [isUnshowable, Bool.or_eq_true, decide_eq_true_eq]

/-- A value that can be shown is shown as it is. -/
theorem shownAs_of_showable {v : Value} (h : ¬ v.isUnshowable = true) (text : String) :
    v.shownAs text = .ok text := by
  rw [isUnshowable_iff, not_or] at h
  rw [shownAs, if_neg h.1, if_neg h.2]

/-- A value that cannot be shown is no failure of the compilation. -/
theorem crashes_shownAs {v : Value} {text : String} :
    Crashes (v.shownAs text) ↔ v.isUnshowable = true := by
  constructor
  · intro h
    by_cases hshow : v.isUnshowable = true
    · exact hshow
    · rw [shownAs_of_showable hshow] at h
      exact absurd h (not_crashes_ok _)
  · intro h
    rw [isUnshowable_iff] at h
    unfold shownAs
    split
    · exact crashes_fault _
    · next hshallow =>
        rw [if_pos (h.resolve_left hshallow)]
        exact crashes_fault _

theorem crashes_quoted {v : Value} : Crashes v.quoted ↔ v.isUnshowable = true := crashes_shownAs

theorem crashes_plain {v : Value} : Crashes v.plain ↔ v.isUnshowable = true := crashes_shownAs

/-- A number can be shown unless it is too long. -/
theorem isUnshowable_number (n : Number) : (Value.number n).isUnshowable = n.isTooLong := by
  simp [isUnshowable, depth, hasLongNumber]

/-- What stands where a text is expected can be shown. -/
theorem isUnshowable_of_plain {v : Value} {word : String} (h : v.plain = .ok word) :
    v.isUnshowable = false := by
  cases hlong : v.isUnshowable with
  | false => rfl
  | true =>
      have hcrash := crashes_plain.2 hlong
      rw [h] at hcrash
      exact absurd hcrash (not_crashes_ok _)

theorem plain_of_showable {v : Value} (h : ¬ v.isUnshowable = true) : v.plain = .ok v.plainText :=
  shownAs_of_showable h _

/-- Nothing is hidden in a blank value. -/
theorem isUnshowable_of_isBlank {v : Value} (h : v.isBlank = true) : v.isUnshowable = false := by
  cases v with
  | null | text s => rfl
  | bool | number | bytes | date | moment | list | pair | map | set => cases h

theorem not_breaksSwitch_of_isBlank {v : Value} (h : v.isBlank = true) : ¬ v.BreaksSwitch := by
  rintro ⟨-, hlong⟩
  rw [isUnshowable_of_isBlank h] at hlong
  cases hlong

theorem not_breaksNumber_of_isBlank {v : Value} (h : v.isBlank = true) : ¬ v.BreaksNumber := by
  rintro (⟨n, rfl, -⟩ | hswitch)
  · cases h
  · exact not_breaksSwitch_of_isBlank h hswitch

theorem toFloat?_int {n : Int} (h : (Float.ofInt n).isFinite = true) :
    (Value.number (.int n)).toFloat? = .ok (some (Float.ofInt n)) := by
  simp only [toFloat?, Number.toFloat?, h, if_true]

theorem toFloat?_of_overflows {v : Value} (h : v.Overflows) :
    v.toFloat? = .error (.fault .tooLarge) := by
  obtain ⟨n, rfl, hn⟩ := h
  simp [toFloat?, Number.toFloat?, hn]

/-- Only a whole number that is too large crashes when it is read as a double. -/
theorem crashes_toFloat? {v : Value} : Crashes v.toFloat? ↔ v.Overflows := by
  constructor
  · intro h
    cases v with
    | number n =>
        cases n with
        | int n =>
            refine ⟨n, rfl, ?_⟩
            cases hfinite : (Float.ofInt n).isFinite with
            | false => rfl
            | true =>
                rw [toFloat?_int hfinite] at h
                exact absurd h (not_crashes_ok _)
        | float x => exact absurd h (not_crashes_ok _)
    | null | bool | text | bytes | date | moment | list | pair | map | set =>
        exact absurd h (not_crashes_ok _)
  · intro h
    rw [toFloat?_of_overflows h]
    exact crashes_fault _

/-- What holds a number that is too long, without being one, is not read as a number. -/
theorem toFloat?_of_breaksSwitch {v : Value} (h : v.BreaksSwitch) : v.toFloat? = .ok none := by
  obtain ⟨hnumber, hlong⟩ := h
  cases v with
  | number n => cases hnumber
  | null | bool | text | bytes | date | moment => cases hlong
  | list | pair | map | set => rfl

/-- What is read as none is no number. -/
theorem number?_of_toFloat? {v : Value} (h : v.toFloat? = .ok none) : v.number? = none := by
  cases v with
  | number n =>
      simp only [toFloat?] at h
      split at h <;> cases h
  | null | bool | text | bytes | date | moment | list | pair | map | set => rfl

/-- What is read as a double does not break the reading of a number. -/
theorem not_breaksNumber_of_toFloat? {v : Value} {x : Float} (h : v.toFloat? = .ok (some x)) :
    ¬ v.BreaksNumber := by
  rintro (hlarge | hswitch)
  · rw [toFloat?_of_overflows hlarge] at h
    cases h
  · rw [toFloat?_of_breaksSwitch hswitch] at h
    cases h

/-- What is read as none breaks the reading of a number only if it cannot be shown. -/
theorem breaksNumber_iff_of_toFloat? {v : Value} (h : v.toFloat? = .ok none) :
    v.BreaksNumber ↔ v.isUnshowable = true := by
  constructor
  · rintro (hlarge | hswitch)
    · rw [toFloat?_of_overflows hlarge] at h
      cases h
    · exact hswitch.2
  · exact fun hlong => .inr ⟨number?_of_toFloat? h, hlong⟩

end Value

namespace Request

theorem crashes_refuseShown {α : Type} {name : Option String} {cause : String → FieldCause}
    {v : Value} :
    Crashes (refuseShown name cause v : Except Failure α) ↔ v.isUnshowable = true := by
  rw [← Value.crashes_quoted]
  exact crashes_bind_of_not fun _ _ => not_crashes_field _ _

/-- Once a value is read as a double or as none, only showing it can crash. -/
theorem isUnshowable_of_judged {v : Value} {name : Option String} {r : Option Float}
    (h : Crashes (match r with
      | none => refuseShown name .notNumberBut v
      | some x => if x.isFinite then return some x else refuseShown name .notFinite v :
        Except Failure (Option Float))) :
    v.isUnshowable = true ∧ ∀ x, r = some x → x.isFinite = false := by
  cases r with
  | none => exact ⟨crashes_refuseShown.1 h, fun _ h => nomatch h⟩
  | some x =>
      cases hfinite : x.isFinite with
      | true =>
          simp only [hfinite, if_true] at h
          exact absurd h (not_crashes_ok _)
      | false =>
          simp only [hfinite, Bool.false_eq_true, if_false] at h
          refine ⟨crashes_refuseShown.1 h, fun y hy => ?_⟩
          cases hy
          exact hfinite

/-- A number is read without a crash unless it is too large, or is none and cannot be
shown. -/
theorem crashes_number? {v : Value} {name : Option String} :
    Crashes (number? v name) ↔ v.BreaksNumber := by
  unfold number?
  cases hblank : v.isBlank with
  | true =>
      have hnot := Value.not_breaksNumber_of_isBlank hblank
      exact ⟨fun h => absurd h (not_crashes_ok _), fun h => absurd h hnot⟩
  | false =>
      simp only [Bool.false_eq_true, if_false]
      constructor
      · intro h
        split at h
        · exact absurd h (not_crashes_field _ _)
        · rcases crashes_bind.1 h with hfloat | ⟨r, hr, h⟩
          · exact .inl (Value.crashes_toFloat?.1 hfloat)
          · obtain ⟨hlong, hinfinite⟩ := isUnshowable_of_judged h
            cases v with
            | number n =>
                cases n with
                | float x => cases hlong
                | int n =>
                    -- A whole number that a double is near is accepted and never shown.
                    cases hfinite : (Float.ofInt n).isFinite with
                    | false => exact .inl ⟨n, rfl, hfinite⟩
                    | true =>
                        cases (Value.toFloat?_int hfinite).symm.trans hr
                        rw [hinfinite _ rfl] at hfinite
                        cases hfinite
            | null | bool | text | bytes | date | moment | list | pair | map | set =>
                exact .inr ⟨rfl, hlong⟩
      · rintro (⟨n, rfl, hn⟩ | hswitch)
        · exact crashes_bind.2 (.inl (Value.crashes_toFloat?.2 ⟨n, rfl, hn⟩))
        · have hfloat := Value.toFloat?_of_breaksSwitch hswitch
          obtain ⟨hnumber, hlong⟩ := hswitch
          split
          · cases hlong
          · refine crashes_bind.2 (.inr ⟨none, hfloat, ?_⟩)
            exact crashes_refuseShown.2 hlong

/-- The bounds of a speed are refused in words that never crash. -/
theorem crashes_speed {v : Value} {name : Option String} {low high : Option Float} :
    Crashes (speed v name low high) ↔ v.BreaksNumber := by
  unfold speed
  rw [crashes_bind_of_not, crashes_number?]
  intro x _
  simp only
  split
  · exact not_crashes_field _ _
  · split
    · exact not_crashes_field _ _
    · split
      · exact not_crashes_field _ _
      · exact not_crashes_ok _

/-- What is read as a number is finite. -/
theorem isFinite_of_number? {v : Value} {name : Option String} {x : Float}
    (h : number? v name = .ok (some x)) : x.isFinite = true := by
  unfold number? at h
  cases hblank : v.isBlank with
  | true =>
      rw [hblank, if_pos rfl] at h
      cases h
  | false =>
      rw [hblank, if_neg Bool.false_ne_true] at h
      split at h
      · cases h
      · obtain ⟨r, -, h⟩ := Ends.of_bind_ok h
        split at h
        · obtain ⟨shown, -, h⟩ := Ends.of_bind_ok h
          cases h
        · split at h
          · next hfinite =>
              cases h
              exact hfinite
          · obtain ⟨shown, -, h⟩ := Ends.of_bind_ok h
            cases h

/-- What is read as a number, or stands in for it, is finite. -/
theorem isFinite_getD {v : Value} {name : Option String} {x : Option Float}
    {default : Float} (h : number? v name = .ok x) (hdefault : default.isFinite = true) :
    (x.getD default).isFinite = true := by
  cases x with
  | none => exact hdefault
  | some x => exact isFinite_of_number? h

/-- A speed is finite. -/
theorem isFinite_of_speed {v : Value} {name : Option String} {low high : Option Float} {x : Float}
    (h : speed v name low high = .ok x) : x.isFinite = true := by
  unfold speed at h
  obtain ⟨r, hr, h⟩ := Ends.of_bind_ok h
  have hone : (1.0 : Float).isFinite = true := rfl
  have hfinite := isFinite_getD hr hone
  simp only at h
  split at h
  · cases h
  · split at h
    · cases h
    · split at h
      · cases h
      · cases h
        exact hfinite

/-- A speed is above its lower bound. -/
theorem not_le_of_speed {v : Value} {name : Option String} {low x : Float} {high : Option Float}
    (h : speed v name (some low) high = .ok x) : ¬ x ≤ low := by
  unfold speed at h
  obtain ⟨r, -, h⟩ := Ends.of_bind_ok h
  simp only at h
  split at h
  · cases h
  · split at h
    · cases h
    · next hlow =>
        split at h
        · cases h
        · cases h
          exact fun hle => hlow (decide_eq_true hle)

/-- A switch is read without a crash unless it is no number and cannot be shown. -/
theorem crashes_switch {v : Value} {name : Option String} {default : Bool} :
    Crashes (switch v name default) ↔ v.BreaksSwitch := by
  unfold switch
  cases hblank : v.isBlank with
  | true =>
      have hnot := Value.not_breaksSwitch_of_isBlank hblank
      exact ⟨fun h => absurd h (not_crashes_ok _), fun h => absurd h hnot⟩
  | false =>
      simp only [Bool.false_eq_true, if_false]
      cases v with
      | bool b => exact ⟨fun h => absurd h (not_crashes_ok _), fun h => nomatch h.2⟩
      | number n =>
          cases n with
          | int n => exact ⟨fun h => absurd h (not_crashes_ok _), fun h => nomatch h.1⟩
          | float x => exact ⟨fun h => (nomatch crashes_refuseShown.1 h), fun h => (nomatch h.1)⟩
      | text s =>
          refine ⟨fun h => ?_, fun h => nomatch h.2⟩
          simp only at h
          split at h
          · exact absurd h (not_crashes_ok _)
          · split at h
            · exact absurd h (not_crashes_ok _)
            · exact nomatch crashes_refuseShown.1 h
      | null | bytes | date | moment | list | pair | map | set =>
          exact ⟨fun h => ⟨rfl, crashes_refuseShown.1 h⟩, fun h => crashes_refuseShown.2 h.2⟩

theorem crashes_format? {v : Value} : Crashes (format? v) ↔ v.isUnshowable = true := by
  unfold format?
  cases hblank : v.isBlank with
  | true =>
      rw [Value.isUnshowable_of_isBlank hblank]
      exact ⟨fun h => absurd h (not_crashes_ok _), fun h => nomatch h⟩
  | false =>
      simp only [Bool.false_eq_true, if_false]
      rw [crashes_bind_of_not, Value.crashes_plain]
      intro word hword
      have hshort := Value.isUnshowable_of_plain hword
      split
      · exact not_crashes_ok _
      · refine not_crashes_bind ?_ fun _ _ => not_crashes_field _ _
        rw [Value.crashes_quoted, hshort]
        exact Bool.false_ne_true

theorem crashes_codec? {v : Value} {name : String} :
    Crashes (codec? v name) ↔ v.isUnshowable = true := by
  unfold codec?
  cases hblank : v.isBlank with
  | true =>
      rw [Value.isUnshowable_of_isBlank hblank]
      exact ⟨fun h => absurd h (not_crashes_ok _), fun h => nomatch h⟩
  | false =>
      simp only [Bool.false_eq_true, if_false]
      rw [crashes_bind_of_not, Value.crashes_plain]
      intro word hword
      have hshort := Value.isUnshowable_of_plain hword
      split
      · exact not_crashes_ok _
      · rw [crashes_refuseShown, hshort]
        exact Bool.false_ne_true

theorem not_crashes_texts (name : Option String) (items : List Value) :
    ¬ Crashes (texts name items) := by
  induction items with
  | nil => exact not_crashes_ok _
  | cons v rest ih =>
      cases v with
      | text s =>
          rw [texts]
          exact not_crashes_bind ih fun _ _ => not_crashes_ok _
      | null | bool | number | bytes | date | moment | list | pair | map | set =>
          exact not_crashes_field _ _

/-- Filters are refused without being shown. -/
theorem not_crashes_filters (v : Value) (name : Option String) : ¬ Crashes (filters v name) := by
  unfold filters
  simp only
  split
  · exact not_crashes_ok _
  · split
    · exact not_crashes_ok _
    · exact not_crashes_bind (not_crashes_texts _ _) fun _ _ => not_crashes_ok _
    · exact not_crashes_bind (not_crashes_texts _ _) fun _ _ => not_crashes_ok _
    · exact not_crashes_field _ _

theorem not_crashes_names (name : Option String) (items : List Value) :
    ¬ Crashes (names name items) := by
  induction items with
  | nil => exact not_crashes_ok _
  | cons v rest ih =>
      cases v with
      | text s =>
          rw [names]
          split
          · exact not_crashes_field _ _
          · exact not_crashes_bind ih fun _ _ => not_crashes_ok _
      | null | bool | number | bytes | date | moment | list | pair | map | set =>
          exact not_crashes_field _ _

theorem not_crashes_listed (name : Option String) (list : Value) :
    ¬ Crashes (match list with
      | .list items => names name items
      | .pair first second => names name [first, second]
      | _ => refuse name .notNameList) := by
  split
  · exact not_crashes_names _ _
  · exact not_crashes_names _ _
  · exact not_crashes_field _ _

/-- Names are refused without being shown, and only the text of a list can crash. -/
theorem crashes_nameList {v : Value} {name : Option String} :
    Crashes (nameList v name) ↔ v.BreaksNames := by
  unfold nameList
  cases hblank : v.isBlank with
  | true =>
      refine ⟨fun h => absurd h (not_crashes_ok _), ?_⟩
      rintro ⟨s, rfl, hdeep⟩
      exact absurd (hdeep.isBlankText.symm.trans hblank) Bool.false_ne_true
  | false =>
      simp only [Bool.false_eq_true, if_false]
      split
      · next s =>
          split
          · next list hread =>
              refine ⟨fun h => absurd h (not_crashes_listed name list), ?_⟩
              rintro ⟨_, ⟨⟩, remaining, hdeep⟩
              cases hread.symm.trans hdeep
          · next remaining hread =>
              exact ⟨fun _ => ⟨s, rfl, remaining, hread⟩, fun _ => crashes_fault _⟩
          · next e hnot hread =>
              refine ⟨fun h => absurd h (not_crashes_field _ _), ?_⟩
              rintro ⟨_, ⟨⟩, remaining, hdeep⟩
              exact absurd (Except.error.inj (hread.symm.trans hdeep)) (hnot remaining)
      · next hnot =>
          refine ⟨fun h => absurd h (not_crashes_listed name v), ?_⟩
          rintro ⟨s, hs, -⟩
          exact absurd hs (hnot s)

theorem not_crashes_requiredName (request : Request) (keys : List String) :
    ¬ Crashes (requiredName request keys) := by
  unfold requiredName
  split
  · split
    · exact not_crashes_field _ _
    · exact not_crashes_ok _
  · exact not_crashes_field _ _
  · exact not_crashes_field _ _

end Request

end Montage
