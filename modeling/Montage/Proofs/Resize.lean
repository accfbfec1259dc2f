import Montage.Proofs.Decimal.Double
import Montage.Proofs.Decimal.Numeral
import Montage.Proofs.Request.Fields
import Montage.Resize

/-!
# Sizes that cannot be read

A side of a size is refused by showing it.  The number that was read from it can always
be shown, so a side crashes the reader only if it holds a number that is too long.
-/

namespace Montage

/-- A value on which the reading of a size crashes: one of two sides cannot be shown, where
the first is read before the second; or the value is no size and cannot be shown. -/
def Value.BreaksSize (field : String) : Value → Prop
  | .list [w, h] | .pair w h =>
    w.isUnshowable = true ∨
      ((∃ width, Resize.readSide field w = .ok width) ∧ h.isUnshowable = true)
  | v => v.isUnshowable = true

namespace Resize

theorem isTooLong_of_lt {n : Int} (h : n.natAbs < Decimal.unreadable) :
    (Number.int n).isTooLong = false :=
  eq_false_of_ne_true (mt Decimal.isTooLong_iff.1 (Nat.not_le.2 h))

/-- What the reader of numerals returns can be shown. -/
theorem isTooLong_readInt? {s : String} {n : Int} (h : Decimal.readInt? s = some n) :
    (Number.int n).isTooLong = false := by
  unfold Decimal.readInt? at h
  cases hread : Decimal.readInteger 10 s.toList with
  | error e =>
      rw [hread] at h
      cases h
  | ok m =>
      rw [hread] at h
      cases h
      exact isTooLong_of_lt (Decimal.natAbs_readInteger hread)

/-- The whole part of a double can be shown. -/
theorem isTooLong_truncate? {x : Float} {n : Int} (h : Decimal.truncate? x = some n) :
    (Number.int n).isTooLong = false := by
  have hbits : Nat.pow 2 1024 ≤ Decimal.unreadable := Decimal.two_pow_le_unreadable (by decide)
  exact isTooLong_of_lt (Nat.lt_of_lt_of_le (Decimal.natAbs_truncate? h) hbits)

/-- A side is read without a crash unless it cannot be shown. -/
theorem crashes_readSide {field : String} {v : Value} :
    Crashes (readSide field v) ↔ v.isUnshowable = true := by
  unfold readSide
  extract_lets refuse side
  have hrefuse (v : Value) : Crashes (refuse v) ↔ v.isUnshowable = true := by
    rw [← Value.crashes_quoted]
    exact crashes_bind_of_not fun _ _ => not_crashes_field _ _
  have hside (v : Value) : Crashes (side v) ↔ v.isUnshowable = true := by
    simp only [side]
    split
    · exact hrefuse v
    · next s hplain =>
        have hshort := Value.isUnshowable_of_plain hplain
        split
        · exact hrefuse v
        · -- A side that is not positive is refused by the number that was read.
          next n hread =>
            have hnumber : (Value.number (.int n)).isUnshowable = false :=
              (Value.isUnshowable_number _).trans (isTooLong_readInt? hread)
            rw [hshort]
            split
            · rw [← hnumber, ← Value.crashes_quoted]
              exact crashes_bind_of_not fun _ _ => not_crashes_field _ _
            · exact ⟨fun h => absurd h (not_crashes_ok _), fun h => nomatch h⟩
  split
  -- A double without a fraction is read again as the whole number that it is.
  · next b => exact hrefuse (.bool b)
  · next x =>
      split
      · next n htruncate =>
          have hnumber : (Value.number (.int n)).isUnshowable = false :=
            (Value.isUnshowable_number _).trans (isTooLong_truncate? htruncate)
          split
          · rw [hside, hnumber]
            rfl
          · exact hrefuse (.number (.float x))
      · exact hrefuse (.number (.float x))
  · exact hside v

/-- Two sides are read one after the other. -/
theorem crashes_sides {field mode : String} {w h : Value} :
    Crashes (do
      let width ← readSide field w
      let height ← readSide field h
      return some { width, height, mode } : Except Failure (Option Resize)) ↔
    w.isUnshowable = true ∨
      ((∃ width, readSide field w = .ok width) ∧ h.isUnshowable = true) := by
  have hsecond (width : Int) : Crashes (do
      let height ← readSide field h
      return some { width, height, mode } : Except Failure (Option Resize)) ↔
      h.isUnshowable = true := by
    refine Iff.trans ?_ (crashes_readSide : Crashes (readSide field h) ↔ _)
    exact crashes_bind_of_not fun _ _ => not_crashes_ok _
  rw [crashes_bind, crashes_readSide]
  simp only [hsecond]
  constructor
  · rintro (hw | ⟨width, hwidth, hh⟩)
    · exact .inl hw
    · exact .inr ⟨⟨width, hwidth⟩, hh⟩
  · rintro (hw | ⟨⟨width, hwidth⟩, hh⟩)
    · exact .inl hw
    · exact .inr ⟨width, hwidth, hh⟩

theorem crashes_refusal {resolution : Value} {field : String} :
    Crashes (do throw (.field (some field) (.notResolution (← resolution.quoted))) :
      Except Failure (Option Resize)) ↔ resolution.isUnshowable = true := by
  rw [← Value.crashes_quoted]
  exact crashes_bind_of_not fun _ _ => not_crashes_field _ _

/-- No text crashes the reader: its parts are texts again. -/
theorem not_crashes_read_text (s : String) (mode : Value) (field : String) :
    ¬ Crashes (read (.text s) mode field) := by
  have hrefuse : ¬ Crashes (do
      throw (.field (some field) (.notResolution (← (Value.text s).quoted))) :
      Except Failure (Option Resize)) := mt crashes_refusal.1 Bool.false_ne_true
  unfold read
  simp only
  split
  · exact not_crashes_ok _
  · split
    · next w h hparts =>
        have htexts : ∀ v ∈ [w, h], v.isUnshowable = false := by
          rw [← hparts]
          intro v hv
          obtain ⟨part, -, rfl⟩ := List.mem_map.1 hv
          rfl
        have hw := htexts w (by simp)
        have hh := htexts h (by simp)
        refine mt crashes_sides.1 ?_
        simp [hw, hh]
    · exact hrefuse

/-- A size is read without a crash unless it breaks the reader. -/
theorem crashes_read {resolution mode : Value} {field : String} :
    Crashes (read resolution mode field) ↔ resolution.BreaksSize field := by
  cases resolution with
  | null => exact ⟨fun h => absurd h (not_crashes_ok _), fun h => nomatch h⟩
  | text s => exact ⟨fun h => absurd h (not_crashes_read_text _ _ _), fun h => nomatch h⟩
  | list items =>
      unfold read
      simp only
      split
      · next w h => exact crashes_sides
      · next hother =>
          rw [Value.BreaksSize]
          · exact crashes_refusal
          · intro w h heq
            exact hother w h (Value.list.inj heq)
          · nofun
  | pair w h => exact crashes_sides
  | bool | number | bytes | date | moment | map | set => exact crashes_refusal

end Resize

end Montage
