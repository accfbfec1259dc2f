import Montage.Number
import Montage.Proofs.Decimal.Numeral

/-!
# The characters of numbers

A number is written with digits, signs, points and a few letters, whether it is whole, a double
in either form, or no number at all.  What has a meaning of its own in the text of a graph is not
among them.
-/

namespace Montage

namespace Decimal

/-- The characters in which numbers are written. -/
def isNumberChar (c : Char) : Bool :=
  c.isDigit || ['+', '-', '.', 'a', 'e', 'f', 'i', 'n'].contains c

/-- A text of such characters. -/
def IsNumeral (s : String) : Prop := ∀ c ∈ s.toList, isNumberChar c = true

theorem isNumeral_of_all {s : String} (h : s.toList.all isNumberChar = true) : IsNumeral s :=
  List.all_eq_true.1 h

theorem isNumeral_append {s t : String} (hs : IsNumeral s) (ht : IsNumeral t) :
    IsNumeral (s ++ t) := by
  intro c hc
  rw [String.toList_append] at hc
  exact (List.mem_append.1 hc).elim (hs c) (ht c)

theorem isNumberChar_of_mem_toDigits {n : Nat} {c : Char} (h : c ∈ Nat.toDigits 10 n) :
    isNumberChar c = true := by
  rw [isNumberChar, isDigit_of_mem_toDigits c h, Bool.true_or]

theorem isNumeral_ofList {cs : List Char} (h : ∀ c ∈ cs, isNumberChar c = true) :
    IsNumeral (String.ofList cs) := by
  rwa [IsNumeral, String.toList_ofList]

theorem isNumeral_exponentText (e : Int) : IsNumeral (exponentText e) := by
  have hdigits : ∀ c ∈ Nat.toDigits 10 e.natAbs, isNumberChar c = true :=
    fun c hc => isNumberChar_of_mem_toDigits hc
  unfold exponentText
  refine isNumeral_append ?_ (isNumeral_ofList ?_)
  · split
    · exact isNumeral_of_all (by decide)
    · exact isNumeral_of_all (by decide)
  · split
    · exact List.forall_mem_cons.2 ⟨by decide, hdigits⟩
    · exact hdigits

/-- Every layout of a decimal is a numeral. -/
theorem isNumeral_write (layout : Layout) (d : Digits) : IsNumeral (layout.write d) := by
  have hpoint : isNumberChar '.' = true := by decide
  have hzero : isNumberChar '0' = true := by decide
  have hdigits : ∀ c ∈ Nat.toDigits 10 d.digits, isNumberChar c = true :=
    fun c hc => isNumberChar_of_mem_toDigits hc
  have hzeros (n : Nat) : ∀ c ∈ List.replicate n '0', isNumberChar c = true := by
    intro c hc
    rwa [List.eq_of_mem_replicate hc]
  unfold Layout.write
  simp only
  split
  · -- One digit, a point and the others, and the exponent.
    refine isNumeral_append (isNumeral_ofList ?_) (isNumeral_exponentText _)
    cases hall : Nat.toDigits 10 d.digits with
    | nil => nofun
    | cons first rest =>
        rw [hall] at hdigits
        obtain ⟨hfirst, hrest⟩ := List.forall_mem_cons.1 hdigits
        cases rest with
        | nil => exact hdigits
        | cons second rest =>
            exact List.forall_mem_cons.2 ⟨hfirst, List.forall_mem_cons.2 ⟨hpoint, hrest⟩⟩
  · split
    · -- A whole number, with zeros for what the digits leave out.
      refine isNumeral_append (isNumeral_ofList ?_) ?_
      · exact List.forall_mem_append.2 ⟨hdigits, hzeros _⟩
      · split
        · exact isNumeral_of_all (by decide)
        · exact isNumeral_of_all (by decide)
    · split
      · -- The point stands among the digits.
        refine isNumeral_ofList (List.forall_mem_append.2 ⟨?_, ?_⟩)
        · exact fun c hc => hdigits c (List.mem_of_mem_take hc)
        · refine List.forall_mem_cons.2 ⟨hpoint, ?_⟩
          exact fun c hc => hdigits c (List.mem_of_mem_drop hc)
      · refine isNumeral_ofList (List.forall_mem_cons.2 ⟨hzero, ?_⟩)
        refine List.forall_mem_cons.2 ⟨hpoint, ?_⟩
        exact List.forall_mem_append.2 ⟨hzeros _, hdigits⟩

/-- Every double is written as a numeral. -/
theorem isNumeral_writeWith (layout : Layout) (find : Nat → Int → Digits) (x : Float) :
    IsNumeral (writeWith layout find x) := by
  unfold writeWith
  split
  · exact isNumeral_of_all (by decide)
  · split
    · exact isNumeral_of_all (by decide)
    · exact isNumeral_of_all (by decide)
  · next negative mantissa exponent _ =>
      have hbody : IsNumeral (if mantissa == 0 then (if layout.pointZero then "0.0" else "0")
          else layout.write (find mantissa exponent)) := by
        split
        · split
          · exact isNumeral_of_all (by decide)
          · exact isNumeral_of_all (by decide)
        · exact isNumeral_write _ _
      simp only
      split
      · refine isNumeral_append ?_ hbody
        exact isNumeral_of_all (by decide)
      · exact hbody

end Decimal

open Decimal

/-- **Every number is written as a numeral.** -/
theorem Number.isNumeral_text (x : Number) : IsNumeral x.text := by
  have hnat (n : Nat) : IsNumeral (Nat.repr n) := by
    intro c hc
    rw [Nat.toList_repr] at hc
    exact isNumberChar_of_mem_toDigits hc
  cases x with
  | float x => exact isNumeral_writeWith _ _ _
  | int n =>
      cases n with
      | ofNat n => exact hnat n
      | negSucc n =>
          refine isNumeral_append ?_ (hnat (n + 1))
          exact isNumeral_of_all (by decide)

end Montage
