import Montage.Number
import Montage.Proofs.Ends
import Montage.Proofs.Request.Refusals
import Montage.Proofs.Resize
import Montage.Proofs.Text.Trim

/-!
# The canonical form of a size

A size can be spelled in many ways: as a text or a list, with signs, white space, underscores and
digits of every script.  Whatever is read as a size has two positive sides that can be written in
decimal, and a known mode (`read_ends`).  Written down, it is read back as itself, and its filters
aim at exactly the sides that are written (`read_canonical`).
-/

namespace Montage

namespace Text

theorem isBlank_of_isAsciiDigit {c : Char} (h : c.isDigit = true) : isBlank c = false := by
  have hbounds := Decimal.bounds_of_isDigit h
  simp only [isBlank, Bool.or_eq_false_iff, Bool.and_eq_false_iff, beq_eq_false_iff_ne,
    decide_eq_false_iff_not]
  omega

/-- Lower case begins with the same digit. -/
theorem head?_lower {c : Char} {rest : List Char} (h : c.isDigit = true) :
    (lower (c :: rest)).head? = some c := by
  obtain ⟨hlow, hhigh⟩ := Decimal.bounds_of_isDigit h
  have hdotted : (c.toNat == 0x130) = false := by
    rw [beq_eq_false_iff_ne]
    omega
  have hsigma : (c.toNat == 0x3a3) = false := by
    rw [beq_eq_false_iff_ne]
    omega
  have hsame : lowerChar c = c := by
    rw [lowerChar, if_pos (by omega), Char.toLower, dif_neg]
    simp only [UInt32.le_iff_toNat_le]
    change ¬ (65 ≤ c.toNat ∧ c.toNat ≤ 90)
    omega
  simp [lower, lowerAfter, hdotted, hsigma, hsame]

end Text

namespace Resize

/-- A number that can be the side of a size: positive, and not too long to be written out. -/
structure IsSide (n : Int) : Prop where
  pos : 0 < n
  short : (Number.int n).isTooLong = false

namespace IsSide

variable {n : Int} (h : IsSide n)
include h

theorem readable : n.natAbs < Decimal.unreadable := by
  by_contra hlong
  cases h.short.symm.trans (Decimal.isTooLong_iff.2 (Nat.not_lt.1 hlong))

/-- A side is written with digits only. -/
theorem toList_toString : (toString n).toList = Nat.toDigits 10 n.natAbs := by
  obtain ⟨k, rfl⟩ := Int.eq_ofNat_of_zero_le h.pos.le
  exact Nat.toList_repr

theorem isDigit {c : Char} (hc : c ∈ (toString n).toList) : c.isDigit = true := by
  rw [h.toList_toString] at hc
  exact Decimal.isDigit_of_mem_toDigits c hc

/-- A side that was written is read back. -/
theorem readInt? : Decimal.readInt? (Text.strip (toString n)) = some n := by
  have hstrip : (Text.strip (toString n)).toList = Nat.toDigits 10 n.natAbs := by
    rw [Text.strip, String.toList_ofList,
      (Text.isTrimmed_of_forall fun c hc =>
        Text.isBlank_of_isAsciiDigit (h.isDigit hc)).trim_eq, h.toList_toString]
  rw [Decimal.readInt?, hstrip, Decimal.readInteger_toDigits, if_pos h.readable,
    Int.natAbs_of_nonneg h.pos.le]
  rfl

/-- A value that stands for a side in decimal is read as this side. -/
theorem readSide {field : String} {v : Value} (hv : v = .number (.int n) ∨ v = .text (toString n)) :
    readSide field v = .ok n := by
  have hplain : v.plain = .ok (toString n) := by
    rcases hv with rfl | rfl
    · refine Value.plain_of_showable ?_
      rw [Value.isUnshowable_number, h.short]
      exact Bool.false_ne_true
    · rfl
  have hpos : ¬ n ≤ 0 := not_le.2 h.pos
  unfold Resize.readSide
  extract_lets refuse side
  have hside : side v = .ok n := by
    simp only [side, hplain, h.readInt?, hpos, if_false]
    rfl
  -- A double and a truth value are no decimal form of a side.
  split
  · rcases hv with hv | hv <;> cases hv
  · rcases hv with hv | hv <;> cases hv
  · exact hside

end IsSide

/-- A size with two sides and the mode that was asked for. -/
structure IsRead (mode : Value) (r : Resize) : Prop where
  width : IsSide r.width
  height : IsSide r.height
  mode_eq : r.mode = readMode mode

/-- Every mode that is understood is one of the modes, and asks for itself. -/
theorem readMode_mem (mode : Value) : readMode mode ∈ modes := by
  have hfit : "fit" ∈ modes := by decide
  unfold readMode
  split
  · simp only
    split
    · next hknown => simpa using hknown
    · exact hfit
  · exact hfit

theorem readMode_of_mem {word : String} (h : word ∈ modes) : readMode (.text word) = word := by
  have hall : ∀ word ∈ modes, readMode (.text word) = word := by decide
  exact hall word h

/-- Two sides in a list are read as a size. -/
theorem read_list {w h : Int} (hw : IsSide w) (hh : IsSide h) (mode : Value) (field : String) :
    read (.list [.number (.int w), .number (.int h)]) mode field =
      .ok (some ⟨w, h, readMode mode⟩) := by
  unfold read
  simp only [hw.readSide (.inl rfl), hh.readSide (.inl rfl)]
  rfl

/-- Two sides with a colon between them are read as a size. -/
theorem read_text {w h : Int} (hw : IsSide w) (hh : IsSide h) (mode : Value) (field : String) :
    read (.text (toString w ++ ":" ++ toString h)) mode field =
      .ok (some ⟨w, h, readMode mode⟩) := by
  have htext : (toString w ++ ":" ++ toString h).toList =
      (toString w).toList ++ ':' :: (toString h).toList := by
    simp [String.toList_append]
  have htrim : Text.trim (toString w ++ ":" ++ toString h).toList =
      (toString w).toList ++ ':' :: (toString h).toList := by
    rw [htext]
    refine (Text.isTrimmed_of_forall fun c hc => ?_).trim_eq
    rcases List.mem_append.1 hc with hc | hc
    · exact Text.isBlank_of_isAsciiDigit (hw.isDigit hc)
    · rcases List.mem_cons.1 hc with rfl | hc
      · decide
      · exact Text.isBlank_of_isAsciiDigit (hh.isDigit hc)
  obtain ⟨c, digits, hcons⟩ : ∃ c digits, (toString w).toList = c :: digits := by
    rw [hw.toList_toString]
    exact List.exists_cons_of_ne_nil Nat.toDigits_ne_nil
  -- The word for no resize begins with no digit.
  have hword : (Text.lower ((toString w).toList ++ ':' :: (toString h).toList) ==
      "original".toList) = false := by
    rw [beq_eq_false_iff_ne]
    intro horiginal
    have hdigit : c.isDigit = true := hw.isDigit (by rw [hcons]; exact List.mem_cons_self)
    have hhead : (Text.lower (c :: (digits ++ ':' :: (toString h).toList))).head? = some c :=
      Text.head?_lower hdigit
    rw [hcons, List.cons_append] at horiginal
    rw [horiginal] at hhead
    cases Option.some.inj hhead
    cases hdigit
  have hnonempty : ((toString w).toList ++ ':' :: (toString h).toList).isEmpty = false := by
    rw [hcons]
    rfl
  have hcolon {n : Int} (hn : IsSide n) : ':' ∉ (toString n).toList :=
    fun hmem => nomatch hn.isDigit hmem
  have hparts : ((toString w).toList ++ ':' :: (toString h).toList).splitOn ':' =
      [(toString w).toList, (toString h).toList] := by
    have hfree : ∀ part ∈ [(toString w).toList, (toString h).toList], ':' ∉ part := by
      simpa using ⟨hcolon hw, hcolon hh⟩
    have hjoined : [':'].intercalate [(toString w).toList, (toString h).toList] =
        (toString w).toList ++ ':' :: (toString h).toList := by simp [List.intercalate]
    rw [← hjoined, List.splitOn_intercalate ':' hfree (by simp)]
  unfold read
  simp only [htrim, hword, hnonempty, hparts, Bool.or_self, Bool.false_eq_true, if_false,
    List.map_cons, List.map_nil, String.ofList_toList, hw.readSide (.inr rfl),
    hh.readSide (.inr rfl)]
  rfl

/-- A filter whose first arguments are two whole numbers is written with their digits first. -/
theorem render_of_args {f : Filter Number} {w h : Int} {others : List (Option String × Arg Number)}
    (hargs : f.args = (none, .number (.int w)) :: (none, .number (.int h)) :: others) :
    f.render = f.name ++ "=" ++
      ":".intercalate (toString w :: toString h :: others.map Filter.renderArg) := by
  rw [Filter.render, hargs]
  rfl

/-- The filters that bring a picture to a size, whatever they do to it. -/
def sized : List String := ["scale", "crop", "pad"]

/-- Each of these filters aims at the size. -/
theorem render_sized (r : Resize) {f : Filter Number} (hf : f ∈ r.filters)
    (hname : f.name ∈ sized) :
    ∃ others, f.render = f.name ++ "=" ++
      ":".intercalate (toString r.width :: toString r.height :: others) := by
  have hsquare : f ≠ squarePixels := by
    rintro rfl
    exact absurd hname (by decide)
  unfold filters at hf
  simp only at hf
  split at hf
  · rcases List.mem_pair.1 hf with rfl | rfl
    · exact ⟨_, render_of_args rfl⟩
    · exact absurd rfl hsquare
  · split at hf
    · simp only [List.mem_cons, List.not_mem_nil, or_false] at hf
      rcases hf with rfl | rfl | rfl
      · exact ⟨_, render_of_args rfl⟩
      · exact ⟨_, render_of_args rfl⟩
      · exact absurd rfl hsquare
    · simp only [List.mem_cons, List.not_mem_nil, or_false] at hf
      rcases hf with rfl | rfl | rfl
      · exact ⟨_, render_of_args rfl⟩
      · exact ⟨_, render_of_args rfl⟩
      · exact absurd rfl hsquare

/-- Whatever is done to a picture, it is scaled first. -/
theorem scaled_first (r : Resize) :
    (r.filters : List (Filter Number)).head?.map Filter.name = some "scale" := by
  unfold filters
  simp only
  split
  · rfl
  · split <;> rfl

/-- The canonical form of a size: two positive sides and a known mode, which are read back from
the text and from the list of the sides, with the mode that was asked for or the one that was
understood.  The filters write these sides, and no others, as what they aim at. -/
structure IsCanonical (mode : Value) (r : Resize) : Prop where
  width_pos : 0 < r.width
  height_pos : 0 < r.height
  mode_mem : r.mode ∈ modes
  read_text : ∀ word, word = mode ∨ word = .text r.mode → ∀ field,
    read (.text (toString r.width ++ ":" ++ toString r.height)) word field = .ok (some r)
  read_list : ∀ word, word = mode ∨ word = .text r.mode → ∀ field,
    read (.list [.number (.int r.width), .number (.int r.height)]) word field = .ok (some r)
  scaled : (r.filters : List (Filter Number)).head?.map Filter.name = some "scale"
  aims : ∀ f ∈ (r.filters : List (Filter Number)), f.name ∈ sized →
    ∃ others, f.render = f.name ++ "=" ++
      ":".intercalate (toString r.width :: toString r.height :: others)

/-- What is read as a size is in canonical form. -/
theorem IsRead.canonical {mode : Value} {r : Resize} (h : IsRead mode r) : IsCanonical mode r := by
  have hmem : r.mode ∈ modes := by
    rw [h.mode_eq]
    exact readMode_mem mode
  have hword (word : Value) (hword : word = mode ∨ word = .text r.mode) :
      readMode word = r.mode := by
    rcases hword with rfl | rfl
    · exact h.mode_eq.symm
    · exact readMode_of_mem hmem
  refine ⟨h.width.pos, h.height.pos, hmem, fun word hw field => ?_, fun word hw field => ?_,
    r.scaled_first, fun f hf hname => r.render_sized hf hname⟩
  · rw [Resize.read_text h.width h.height, hword word hw]
  · rw [Resize.read_list h.width h.height, hword word hw]

/-- Digits of another script, an underscore and white space are gone in the canonical form. -/
example : read (.text " +1_280 : ७२० ") (.text " Cover ") "resolution" =
    .ok (some ⟨1280, 720, "cover"⟩) := by
  decide +kernel

end Resize

end Montage
