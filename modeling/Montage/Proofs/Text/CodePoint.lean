import Montage.Text.CodePoint

/-!
# Every code point can be written and read back

The characters in which code points are written tell what the code points are
(`codePoints_flatMap`), halves of surrogate pairs and the two marks included, and the
system takes them unless a null character or a half without encoding is among them
(`isSendable_flatMap`).
-/

namespace Montage.Text

/-- A character that is no mark stands for itself. -/
theorem codePoints_cons {c : Char} (hhalf : c ≠ halfMark) (hspare : c ≠ spareMark)
    (cs : List Char) : codePoints (c :: cs) = c.toNat :: codePoints cs := by
  cases cs with
  | nil => rfl
  | cons d rest =>
      have hmark : (c == halfMark || c == spareMark) = false := by simp [hhalf, hspare]
      rw [codePoints, hmark]
      rfl

/-- A mark stands for a code point together with the character behind it. -/
theorem codePoints_mark {c : Char} (hmark : c = halfMark ∨ c = spareMark) (d : Char)
    (cs : List Char) : codePoints (c :: d :: cs) = markedPoint d :: codePoints cs := by
  have hmark : (c == halfMark || c == spareMark) = true := by simpa using hmark
  rw [codePoints, hmark]
  rfl

/-- A number that is no half of a pair and not too large is that of a character. -/
theorem toNat_ofNat {n : Nat} (hhalf : isHalf n = false) (hn : n < 0x110000) :
    (Char.ofNat n).toNat = n := by
  have hvalid : n.isValidChar := by
    simp only [isHalf, Bool.and_eq_false_iff, decide_eq_false_iff_not] at hhalf
    simp only [Nat.isValidChar]
    omega
  rw [Char.ofNat, dif_pos hvalid]
  rfl

/-- The number of a character behind a mark. -/
theorem toNat_behind_mark {k : Nat} (hk : k < 0x10000) :
    (Char.ofNat (0xf0000 + k)).toNat = 0xf0000 + k := by
  refine toNat_ofNat ?_ (by omega)
  simp only [isHalf, Bool.and_eq_false_iff, decide_eq_false_iff_not]
  omega

theorem toNat_halfMark : halfMark.toNat = 0x10ffff := toNat_ofNat rfl (by decide)

theorem toNat_spareMark : spareMark.toNat = 0x10fffe := toNat_ofNat rfl (by decide)

/-- Characters with different numbers are different. -/
theorem ne_of_toNat_ne {c d : Char} (h : c.toNat ≠ d.toNat) : c ≠ d := fun hcd => h (hcd ▸ rfl)

variable {n : Nat}

/-- A code point is read back from its characters, whatever stands behind them. -/
theorem codePoints_append (hn : n < 0x110000) (cs : List Char) :
    codePoints (ofCodePoint n ++ cs) = n :: codePoints cs := by
  unfold ofCodePoint
  split
  · next hhalf =>
      -- The characters behind the marks number the halves first.
      simp only [isHalf, Bool.and_eq_true, decide_eq_true_eq] at hhalf
      have hpoint : markedPoint (Char.ofNat (0xf0000 + (n - 0xd800))) = n := by
        rw [markedPoint, toNat_behind_mark (by omega), if_pos (by omega)]
        omega
      refine (codePoints_mark ?_ _ cs).trans (by rw [hpoint])
      split
      · exact .inr rfl
      · exact .inl rfl
  · next hhalf =>
      have hhalf : isHalf n = false := by simpa using hhalf
      split
      · next hmark =>
          have hnumber := toNat_ofNat hhalf hn
          have hfirst : (Char.ofNat n).toNat ≠ halfMark.toNat := by
            rw [hnumber, toNat_halfMark]
            omega
          have hsecond : (Char.ofNat n).toNat ≠ spareMark.toNat := by
            rw [hnumber, toNat_spareMark]
            omega
          refine (codePoints_cons (ne_of_toNat_ne hfirst) (ne_of_toNat_ne hsecond) cs).trans ?_
          rw [hnumber]
      · next hmark =>
          -- Behind the halves they number the marks.
          have hpoint : markedPoint (Char.ofNat (0xf0800 + (n - 0x10fffe))) = n := by
            have hnumber := toNat_behind_mark (k := 0x800 + (n - 0x10fffe)) (by omega)
            rw [← Nat.add_assoc] at hnumber
            rw [markedPoint, hnumber, if_neg (by omega)]
            omega
          exact (codePoints_mark (.inr rfl) _ cs).trans (by rw [hpoint])

/-- **Code points are read back from the characters in which they are written.** -/
theorem codePoints_flatMap {ns : List Nat} (hns : ∀ n ∈ ns, n < 0x110000) :
    codePoints (ns.flatMap ofCodePoint) = ns := by
  induction ns with
  | nil => rfl
  | cons n ns ih =>
      rw [List.flatMap_cons, codePoints_append (hns n List.mem_cons_self),
        ih fun m hm => hns m (List.mem_cons_of_mem n hm)]

theorem isSendable_append (cs ds : List Char) :
    isSendable (cs ++ ds) = (isSendable cs && isSendable ds) := List.all_append

/-- Of the characters that do not mark a half, the system refuses the null character. -/
theorem isSendable_singleton {c : Char} (hhalf : c ≠ halfMark) :
    isSendable [c] = (c.toNat != 0) := by
  have hnull : (c != '\x00') = (c.toNat != 0) := by
    by_cases h : c = '\x00'
    · rw [h]
      rfl
    · have hnumber : c.toNat ≠ 0 := fun hzero => h (Char.toNat_inj.1 hzero)
      rw [bne_iff_ne.2 h, bne_iff_ne.2 hnumber]
  simp [isSendable, hhalf, hnull]

/-- The character behind a mark changes nothing. -/
theorem isSendable_mark (mark : Char) {k : Nat} (hk : k < 0x10000) :
    isSendable [mark, Char.ofNat (0xf0000 + k)] = isSendable [mark] := by
  have hnumber := toNat_behind_mark hk
  have hhalf : Char.ofNat (0xf0000 + k) ≠ halfMark := by
    refine ne_of_toNat_ne ?_
    rw [hnumber, toNat_halfMark]
    omega
  have hbehind : isSendable [Char.ofNat (0xf0000 + k)] = true := by
    rw [isSendable_singleton hhalf, hnumber, bne_iff_ne]
    omega
  rw [← List.singleton_append, isSendable_append, hbehind, Bool.and_true]

/-- Whether the system takes a code point. -/
def isSendablePoint (n : Nat) : Bool := n != 0 && (!isHalf n || isByteHalf n)

theorem isSendable_ofCodePoint (hn : n < 0x110000) :
    isSendable (ofCodePoint n) = isSendablePoint n := by
  unfold ofCodePoint
  split
  · next hhalf =>
      have hbounds := hhalf
      simp only [isHalf, Bool.and_eq_true, decide_eq_true_eq] at hbounds
      have hpositive : (n != 0) = true := bne_iff_ne.2 (by omega)
      rw [isSendable_mark _ (by omega), isSendablePoint, hpositive, hhalf]
      cases isByteHalf n <;> rfl
  · next hhalf =>
      have hhalf : isHalf n = false := by simpa using hhalf
      rw [isSendablePoint, hhalf]
      split
      · next hmark =>
          have hnumber := toNat_ofNat hhalf hn
          have hother : Char.ofNat n ≠ halfMark := by
            refine ne_of_toNat_ne ?_
            rw [hnumber, toNat_halfMark]
            omega
          rw [isSendable_singleton hother, hnumber]
          exact (Bool.and_true _).symm
      · next hmark =>
          have hbehind := isSendable_mark spareMark (k := 0x800 + (n - 0x10fffe)) (by omega)
          rw [← Nat.add_assoc] at hbehind
          have hpositive : (n != 0) = true := bne_iff_ne.2 (by omega)
          rw [hbehind, hpositive]
          rfl

/-- **The system takes a text unless it holds a null character or a half without
encoding.** -/
theorem isSendable_flatMap {ns : List Nat} (hns : ∀ n ∈ ns, n < 0x110000) :
    isSendable (ns.flatMap ofCodePoint) = ns.all isSendablePoint := by
  induction ns with
  | nil => rfl
  | cons n ns ih =>
      rw [List.flatMap_cons, isSendable_append, List.all_cons,
        isSendable_ofCodePoint (hns n List.mem_cons_self),
        ih fun m hm => hns m (List.mem_cons_of_mem n hm)]

end Montage.Text
