import Montage.Graph.Label
import Montage.Proofs.Decimal.Numeral

/-!
# Labels that the planners write

The planners name raw streams and filtered clips by decimal numbers, and the builder
and the assembler read these names again.  A raw label is recognised and its number is
read back; the label of a filtered clip is never taken for a raw one, belongs to one
clip only, and differs from the labels of the results.
-/

namespace Montage

namespace Text

theorem isDigit_of_isDigit {c : Char} (h : c.isDigit = true) : isDigit c = true := by
  have hbounds := Decimal.bounds_of_isDigit h
  have hlt : c.toNat < 128 := by omega
  simp [isDigit, digitValue?, hlt, hbounds]

theorem takeWhile_isDigit {cs rest : List Char} {c : Char} (h : ∀ d ∈ cs, d.isDigit = true)
    (hc : isDigit c = false) : (cs ++ c :: rest).takeWhile isDigit = cs := by
  rw [List.takeWhile_append_of_pos fun d hd => isDigit_of_isDigit (h d hd)]
  simp [hc]

theorem dropWhile_isDigit {cs rest : List Char} {c : Char} (h : ∀ d ∈ cs, d.isDigit = true)
    (hc : isDigit c = false) : (cs ++ c :: rest).dropWhile isDigit = c :: rest := by
  rw [List.dropWhile_append_of_pos fun d hd => isDigit_of_isDigit (h d hd)]
  simp [hc]

end Text

namespace Label

theorem toList_repr (n : Nat) : (n : Int).repr.toList = Nat.toDigits 10 n := Nat.toList_repr

theorem toList_raw (n : Nat) (stream : Stream) :
    (raw n stream).toList = Nat.toDigits 10 n ++ [':', stream.letter] := by
  simp [raw, toList_repr]

theorem toList_clipVideo (n : Nat) : (clipVideo n).toList = 'v' :: Nat.toDigits 10 n := by
  simp [clipVideo, toList_repr]

/-- A raw label is taken apart into its digits and its stream. -/
theorem rawParts?_raw (n : Nat) (stream : Stream) :
    rawParts? (raw n stream).toList = some (Nat.toDigits 10 n, stream) := by
  have hdigits := Decimal.isDigit_of_mem_toDigits (n := n)
  have hcolon : Text.isDigit ':' = false := by decide
  have hne : (Nat.toDigits 10 n).isEmpty = false := by simp
  simp only [rawParts?, toList_raw, Text.takeWhile_isDigit hdigits hcolon,
    Text.dropWhile_isDigit hdigits hcolon, hne, Bool.false_eq_true, if_false,
    Stream.ofLetter?_letter, Option.map_some]

/-- The digits of a raw label. -/
theorem of_rawParts {label digits : List Char} {stream : Stream}
    (h : rawParts? label = some (digits, stream)) :
    (∀ c ∈ digits, Text.isDigit c = true) ∧ digits ≠ [] := by
  by_cases hne : label.takeWhile Text.isDigit = []
  · simp [rawParts?, hne] at h
  · simp only [rawParts?] at h
    rw [if_neg (by simpa using hne)] at h
    have htaken : digits = label.takeWhile Text.isDigit := by
      split at h
      · obtain ⟨_, -, hpair⟩ := Option.map_eq_some_iff.1 h
        exact (Prod.ext_iff.1 hpair).1.symm
      · obtain ⟨_, -, hpair⟩ := Option.map_eq_some_iff.1 h
        exact (Prod.ext_iff.1 hpair).1.symm
      · cases h
    rw [htaken]
    exact ⟨fun c hc => List.all_eq_true.1 List.all_takeWhile c hc, hne⟩

theorem isRaw_raw (n : Nat) (stream : Stream) : isRaw (raw n stream) = true := by
  rw [isRaw, rawParts?_raw, Option.isSome_some]

/-- The number of a raw label is read back, unless it is too long to be read. -/
theorem rawInput?_raw (n : Nat) (stream : Stream) :
    rawInput? (raw n stream) =
      if n < Decimal.unreadable then .ok (some (n : Int)) else .error .badValue := by
  simp only [rawInput?, rawParts?_raw, Decimal.readInteger_toDigits]
  by_cases h : n < Decimal.unreadable
  · simp only [if_pos h]
  · simp only [if_neg h]

/-- A raw label with more digits than a number that is read may have. -/
def IsOverlong (label : String) : Prop :=
  ∃ digits stream, rawParts? label.toList = some (digits, stream) ∧
    Decimal.digitLimit < digits.length

/-- The number of a raw label is that of its digits, of whatever script, unless they are too
many. -/
theorem rawInput?_of_rawParts {label : String} {digits : List Char} {stream : Stream}
    (h : rawParts? label.toList = some (digits, stream)) :
    rawInput? label =
      if digits.length ≤ Decimal.digitLimit then
        .ok (some (Nat.ofDigitChars 10 (digits.map Decimal.plainChar) 0 : Nat))
      else .error .badValue := by
  obtain ⟨hdigits, hne⟩ := of_rawParts h
  simp only [rawInput?, h, Decimal.readInteger_of_digits hdigits hne]
  by_cases hlength : digits.length ≤ Decimal.digitLimit
  · simp only [if_pos hlength]
  · simp only [if_neg hlength]

/-- A label that is not raw names no input. -/
theorem rawInput?_of_not_raw {label : String} (h : isRaw label = false) :
    rawInput? label = .ok none := by
  have hnone : rawParts? label.toList = none := by simpa [isRaw] using h
  simp only [rawInput?, hnone]

/-- A label is not raw, or its number is read, or it is too long. -/
theorem rawInput?_cases (label : String) :
    (isRaw label = false ∧ rawInput? label = .ok none) ∨
      isRaw label = true ∧ ((∃ n : Nat, rawInput? label = .ok (some (n : Int))) ∨
        IsOverlong label ∧ rawInput? label = .error .badValue) := by
  cases hparts : rawParts? label.toList with
  | none =>
      have hraw : isRaw label = false := by rw [isRaw, hparts, Option.isSome_none]
      exact .inl ⟨hraw, rawInput?_of_not_raw hraw⟩
  | some parts =>
      obtain ⟨digits, stream⟩ := parts
      have hraw : isRaw label = true := by rw [isRaw, hparts, Option.isSome_some]
      have hread := rawInput?_of_rawParts hparts
      by_cases hlength : digits.length ≤ Decimal.digitLimit
      · rw [if_pos hlength] at hread
        exact .inr ⟨hraw, .inl ⟨_, hread⟩⟩
      · rw [if_neg hlength] at hread
        exact .inr ⟨hraw, .inr ⟨⟨digits, stream, hparts, Nat.not_le.1 hlength⟩, hread⟩⟩

/-- A label that does not begin with a digit is not raw. -/
theorem isRaw_of_head {label : String} {c : Char} {rest : List Char}
    (hlabel : label.toList = c :: rest) (hc : Text.isDigit c = false) : isRaw label = false := by
  simp [isRaw, rawParts?, hlabel, hc]

theorem isRaw_clipVideo (n : Nat) : isRaw (clipVideo n) = false :=
  isRaw_of_head (toList_clipVideo n) (by decide)

/-- Numbers are told apart by their digits. -/
theorem toDigits_inj {m n : Nat} : Nat.toDigits 10 m = Nat.toDigits 10 n ↔ m = n := by
  refine ⟨fun h => ?_, congrArg _⟩
  have hnumbers := congrArg (fun digits => Nat.ofDigitChars 10 digits 0) h
  simpa only [Nat.ofDigitChars_ten_toDigits] using hnumbers

/-- The label of an input's stream, with any text for the stream. -/
def ofStream (input : Int) (kind : String) : String := toString input ++ ":" ++ kind

theorem raw_eq_ofStream (n : Nat) (stream : Stream) :
    raw n stream = ofStream n stream.letter.toString := rfl

/-- The number ends at the first colon, and the rest is the stream. -/
theorem ofStream_inj {m n : Nat} {kind other : String} :
    ofStream m kind = ofStream n other ↔ m = n ∧ kind = other := by
  refine ⟨fun h => ?_, fun ⟨hnumber, hkind⟩ => by rw [hnumber, hkind]⟩
  have htext (n : Nat) (kind : String) :
      (ofStream n kind).toList = Nat.toDigits 10 n ++ ':' :: kind.toList := by
    simp [ofStream, toList_repr]
  have hcolon : Text.isDigit ':' = false := by decide
  have hlists := congrArg String.toList h
  rw [htext, htext] at hlists
  have hdigits := congrArg (List.takeWhile Text.isDigit) hlists
  rw [Text.takeWhile_isDigit Decimal.isDigit_of_mem_toDigits hcolon,
    Text.takeWhile_isDigit Decimal.isDigit_of_mem_toDigits hcolon, toDigits_inj] at hdigits
  subst hdigits
  have hkinds := (List.cons.inj (List.append_cancel_left hlists)).2
  exact ⟨rfl, String.toList_inj.1 hkinds⟩

/-- A raw label belongs to one stream of one input. -/
theorem raw_inj {m n : Nat} {stream other : Stream} :
    raw m stream = raw n other ↔ m = n ∧ stream = other := by
  have hletter : stream.letter.toString = other.letter.toString ↔ stream = other := by
    cases stream <;> cases other <;> decide
  rw [raw_eq_ofStream, raw_eq_ofStream, ofStream_inj, hletter]

theorem clipVideo_injective {m n : Nat} (h : clipVideo m = clipVideo n) : m = n := by
  have hlists := congrArg String.toList h
  rwa [toList_clipVideo, toList_clipVideo, List.cons.injEq, toDigits_inj,
    and_iff_right rfl] at hlists

/-- The label of a clip has a number behind its letter. -/
theorem clipVideo_ne (n : Nat) {label : String} (h : label.toList.length ≤ 1) :
    clipVideo n ≠ label := by
  rintro rfl
  have hpos := Nat.length_toDigits_pos (b := 10) (n := n)
  rw [toList_clipVideo, List.length_cons] at h
  omega

end Label

end Montage
