import Montage.Number

/-!
# Reading decimal digits back

A whole number that was written in decimal is read back, as long as it has no more
digits than a numeral may have.  Every stage of the reader leaves a text of ASCII
digits as it is; only the last one turns it into a number.  Digits of another script
become ASCII digits before all these stages.
-/

namespace Montage.Text

/-- A digit beyond ASCII stands behind the zero of its block. -/
theorem exists_zero_of_isDigit {c : Char} (h : isDigit c = true) (hc : ¬ c.toNat < 128) :
    ∃ first ∈ digitZeros, first ≤ c.toNat ∧ c.toNat ≤ first + 9 ∧
      digitValue? c = some (c.toNat - first) := by
  rw [isDigit, digitValue?, if_neg hc, Option.isSome_map, Option.isSome_iff_exists] at h
  obtain ⟨first, hfind⟩ := h
  have hbounds := List.find?_some hfind
  simp only [Bool.and_eq_true, decide_eq_true_eq] at hbounds
  refine ⟨first, List.mem_of_find?_eq_some hfind, hbounds.1, hbounds.2, ?_⟩
  rw [digitValue?, if_neg hc, hfind, Option.map_some]

/-- No block of digits touches white space. -/
theorem digitZeros_apart : ∀ first ∈ digitZeros, 160 < first ∧
    (first + 9 < 5760 ∨ 5760 < first) ∧ (first + 9 < 8192 ∨ 12288 < first) := by
  decide

theorem isBlank_of_isDigit {c : Char} (h : isDigit c = true) (hc : ¬ c.toNat < 128) :
    isBlank c = false := by
  obtain ⟨first, hfirst, hlow, hhigh, -⟩ := exists_zero_of_isDigit h hc
  obtain ⟨hlatin, hogham, hspaces⟩ := digitZeros_apart first hfirst
  simp only [isBlank, Bool.or_eq_false_iff, Bool.and_eq_false_iff, beq_eq_false_iff_ne,
    decide_eq_false_iff_not]
  omega

end Montage.Text

namespace Montage.Decimal

theorem bounds_of_isDigit {c : Char} (h : c.isDigit = true) : 48 ≤ c.toNat ∧ c.toNat ≤ 57 := by
  simp only [Char.isDigit, Bool.and_eq_true, decide_eq_true_eq] at h
  exact ⟨h.1, h.2⟩

theorem ne_of_isDigit {c d : Char} (h : c.isDigit = true) (hd : d.isDigit = false) : c ≠ d := by
  rintro rfl
  simp [h] at hd

theorem digitIn?_of_isDigit {c : Char} (h : c.isDigit = true) :
    digitIn? 10 c = some (c.toNat - 48) := by
  have hbounds := bounds_of_isDigit h
  have hlt : c.toNat - 48 < 10 := by omega
  simp [digitIn?, Text.hexDigit?, h, hlt]

/-- A digit is a plain character already. -/
theorem plainChar_of_isDigit {c : Char} (h : c.isDigit = true) : plainChar c = c := by
  have hbounds := bounds_of_isDigit h
  have hlt : c.toNat < 127 := by omega
  simp [plainChar, hlt]

/-- The plain form of a digit of any script is an ASCII digit. -/
theorem isDigit_plainChar {c : Char} (h : Text.isDigit c = true) :
    (plainChar c).isDigit = true := by
  by_cases hc : c.toNat < 128
  · have hascii : 48 ≤ c.toNat ∧ c.toNat ≤ 57 := by
      rw [Text.isDigit, Text.digitValue?, if_pos hc, Option.isSome_ite] at h
      simpa using h
    rw [plainChar, if_pos (by omega), Char.isDigit_iff_toNat]
    exact hascii
  · obtain ⟨first, -, hlow, hhigh, hvalue⟩ := Text.exists_zero_of_isDigit h hc
    have hten : c.toNat - first < 10 := by omega
    rw [plainChar, if_neg (by omega), if_neg (by simp [Text.isBlank_of_isDigit h hc]), hvalue,
      Nat.isDigit_digitChar, decide_eq_true hten]

theorem isPlainBlank_of_isDigit {c : Char} (h : c.isDigit = true) : isPlainBlank c = false := by
  have hbounds := bounds_of_isDigit h
  simp only [isPlainBlank, Bool.or_eq_false_iff, Bool.and_eq_false_iff, beq_eq_false_iff_ne,
    decide_eq_false_iff_not]
  omega

theorem dropWhile_isPlainBlank {cs : List Char} (h : ∀ c ∈ cs, c.isDigit = true) :
    cs.dropWhile isPlainBlank = cs := by
  cases cs with
  | nil => rfl
  | cons c rest =>
      have hc := isPlainBlank_of_isDigit (h c (by simp))
      simp [hc]

/-- Digits have no white space around them. -/
theorem plain_of_isDigit {cs : List Char} (h : ∀ c ∈ cs, c.isDigit = true) : plain cs = cs := by
  have hmap : cs.map plainChar = cs := by
    rw [List.map_congr_left fun c hc => plainChar_of_isDigit (h c hc), List.map_id']
  have hreverse : ∀ c ∈ cs.reverse, c.isDigit = true := fun c hc => h c (List.mem_reverse.1 hc)
  rw [plain, hmap, dropWhile_isPlainBlank h, dropWhile_isPlainBlank hreverse, List.reverse_reverse]

theorem takeSign_of_isDigit {cs : List Char} (h : ∀ c ∈ cs, c.isDigit = true) :
    takeSign cs = (false, cs) := by
  cases cs with
  | nil => rfl
  | cons c rest =>
      have hminus : c ≠ '-' := ne_of_isDigit (h c (by simp)) rfl
      have hplus : c ≠ '+' := ne_of_isDigit (h c (by simp)) rfl
      simp [takeSign, hminus, hplus]

theorem dropBaseMarker_ten (cs : List Char) : dropBaseMarker 10 cs = cs := by
  unfold dropBaseMarker
  split <;> simp

/-- Digits without underscores are joined as they are. -/
theorem joinDigits_of_isDigit (isDigit : Char → Bool) (digit : Bool) {cs : List Char}
    (h : ∀ c ∈ cs, c.isDigit = true) : joinDigits isDigit digit cs = some cs := by
  induction cs generalizing digit with
  | nil => simp [joinDigits]
  | cons c rest ih =>
      have hc : c ≠ '_' := ne_of_isDigit (h c (by simp)) rfl
      have hrest : ∀ c ∈ rest, c.isDigit = true := fun c hc => h c (List.mem_cons_of_mem _ hc)
      rw [joinDigits, ih _ hrest, Option.map_some]
      exact hc

theorem natIn?_of_isDigit (acc : Nat) {cs : List Char} (h : ∀ c ∈ cs, c.isDigit = true) :
    natIn? 10 acc cs = some (Nat.ofDigitChars 10 cs acc) := by
  induction cs generalizing acc with
  | nil => simp [natIn?]
  | cons c rest ih =>
      have hrest : ∀ c ∈ rest, c.isDigit = true := fun c hc => h c (List.mem_cons_of_mem _ hc)
      have hstep : acc * 10 + (c.toNat - 48) = 10 * acc + (c.toNat - '0'.toNat) := by
        rw [Nat.mul_comm]
        rfl
      simp only [natIn?, digitIn?_of_isDigit (h c (by simp)), ih _ hrest,
        Nat.ofDigitChars_cons, hstep]

theorem isDigit_of_mem_toDigits {n : Nat} : ∀ c ∈ Nat.toDigits 10 n, c.isDigit = true :=
  fun _ hc => Nat.isDigit_of_mem_toDigits (by decide) (by decide) hc

/-- The least whole number that has too many decimal digits to be read. -/
def unreadable : Nat := Nat.pow 10 digitLimit

theorem one_lt_unreadable : 1 < unreadable := Nat.one_lt_pow (by decide) (by decide)

/-- The powers of ten outrun those of two. -/
theorem two_pow_le_unreadable {bits : Nat} (h : bits ≤ digitLimit) :
    Nat.pow 2 bits ≤ unreadable :=
  Nat.le_trans (Nat.pow_le_pow_right Nat.two_pos h)
    (Nat.pow_le_pow_left (show 2 ≤ 10 by decide) digitLimit)

/-- What is too long to be read has many bits. -/
theorem le_log2_of_unreadable {bits n : Nat} (h : bits ≤ digitLimit) (hn : unreadable ≤ n) :
    bits ≤ n.log2 := by
  have hone := one_lt_unreadable
  have hpower : 2 ^ bits ≤ n := Nat.le_trans (two_pow_le_unreadable h) hn
  exact (Nat.le_log2 (by omega)).2 hpower

/-- A whole number is too long to be written exactly if it is too long to be read. -/
theorem isTooLong_iff {n : Int} : (Number.int n).isTooLong = true ↔ unreadable ≤ n.natAbs := by
  unfold Number.isTooLong unreadable
  rw [decide_eq_true_iff]

/-- Digits are read as a number, unless they are too many. -/
theorem readInteger_of_isDigit {cs : List Char} (h : ∀ c ∈ cs, c.isDigit = true) (hne : cs ≠ []) :
    readInteger 10 cs =
      if cs.length ≤ digitLimit then .ok (Nat.ofDigitChars 10 cs 0 : Nat)
      else .error (.tooLong cs.length) := by
  have hall : cs.all (fun c => (digitIn? 10 c).isSome) = true := by
    rw [List.all_eq_true]
    intro c hc
    rw [digitIn?_of_isDigit (h c hc), Option.isSome_some]
  have hvalue := natIn?_of_isDigit 0 h
  unfold readInteger
  rw [plain_of_isDigit h, takeSign_of_isDigit h]
  simp only [dropBaseMarker_ten, joinDigits_of_isDigit _ _ h]
  obtain ⟨c, rest, rfl⟩ := List.exists_cons_of_ne_nil hne
  by_cases hlength : (c :: rest).length ≤ digitLimit
  · have hshort : ¬ (c :: rest).length > digitLimit := Nat.not_lt.2 hlength
    simp only [hall, hvalue, hlength, hshort, decide_false, Bool.and_false, Bool.not_true,
      Bool.false_eq_true, if_false, if_true]
  · have hlong : (c :: rest).length > digitLimit := Nat.not_le.1 hlength
    simp only [hall, hlength, hlong, decide_true, beq_self_eq_true, Bool.and_true, Bool.not_true,
      Bool.false_eq_true, if_false, if_true]

/-- The numbers that have no more digits than are read. -/
theorem length_toDigits_le_iff {n : Nat} :
    (Nat.toDigits 10 n).length ≤ digitLimit ↔ n < unreadable :=
  Nat.length_toDigits_le_iff (by decide) (by decide)

/-- A whole number is read back from its decimal digits, unless they are too many. -/
theorem readInteger_toDigits (n : Nat) :
    readInteger 10 (Nat.toDigits 10 n) =
      if n < unreadable then .ok n else .error (.tooLong (Nat.toDigits 10 n).length) := by
  rw [readInteger_of_isDigit isDigit_of_mem_toDigits Nat.toDigits_ne_nil,
    Nat.ofDigitChars_ten_toDigits]
  simp only [length_toDigits_le_iff]

/-- Digits of any script are read by the ASCII digits that they stand for. -/
theorem readInteger_of_digits {cs : List Char} (h : ∀ c ∈ cs, Text.isDigit c = true)
    (hne : cs ≠ []) :
    readInteger 10 cs =
      if cs.length ≤ digitLimit then .ok (Nat.ofDigitChars 10 (cs.map plainChar) 0 : Nat)
      else .error (.tooLong cs.length) := by
  have hplain : ∀ c ∈ cs.map plainChar, c.isDigit = true := by
    intro c hc
    obtain ⟨d, hd, rfl⟩ := List.mem_map.1 hc
    exact isDigit_plainChar (h d hd)
  have hreverse : ∀ c ∈ (cs.map plainChar).reverse, c.isDigit = true :=
    fun c hc => hplain c (List.mem_reverse.1 hc)
  have hsame : plain cs = plain (cs.map plainChar) := by
    rw [plain_of_isDigit hplain, plain, dropWhile_isPlainBlank hplain,
      dropWhile_isPlainBlank hreverse, List.reverse_reverse]
  have hread : readInteger 10 cs = readInteger 10 (cs.map plainChar) := by
    rw [readInteger, hsame]
    rfl
  rw [hread, readInteger_of_isDigit hplain (by simpa using hne), List.length_map]

theorem lt_of_digitIn? {base n : Nat} {c : Char} (h : digitIn? base c = some n) : n < base := by
  unfold digitIn? at h
  split at h
  · split at h
    · next hlt =>
        cases h
        exact hlt
    · cases h
  · cases h

/-- A run of digits is less than the next power of its base. -/
theorem natIn?_lt {base acc n : Nat} {cs : List Char} (h : natIn? base acc cs = some n) :
    n < (acc + 1) * Nat.pow base cs.length := by
  induction cs generalizing acc with
  | nil =>
      cases h
      change n < (n + 1) * 1
      omega
  | cons c rest ih =>
      unfold natIn? at h
      split at h
      · next digit hdigit =>
          have hlt := lt_of_digitIn? hdigit
          have hstep : acc * base + digit + 1 ≤ (acc + 1) * base := by
            rw [Nat.add_mul]
            omega
          calc n < (acc * base + digit + 1) * Nat.pow base rest.length := ih h
            _ ≤ (acc + 1) * base * Nat.pow base rest.length := Nat.mul_le_mul_right _ hstep
            _ = (acc + 1) * (Nat.pow base rest.length * base) := by
              rw [Nat.mul_assoc, Nat.mul_comm base]
      · cases h

/-- What is read as a whole number can also be written. -/
theorem natAbs_readInteger {cs : List Char} {n : Int} (h : readInteger 10 cs = .ok n) :
    n.natAbs < unreadable := by
  unfold readInteger at h
  simp only at h
  split at h
  · cases h
  · cases h
  · next digits _ _ =>
      split at h
      · cases h
      · split at h
        · cases h
        · next hshort =>
            have hlength : digits.length ≤ digitLimit := by
              simpa using hshort
            split at h
            · next value hvalue =>
                have hpower : Nat.pow 10 digits.length ≤ unreadable :=
                  Nat.pow_le_pow_right (by decide) hlength
                have hlt : value < unreadable := by
                  have hfirst := natIn?_lt hvalue
                  rw [Nat.zero_add, Nat.one_mul] at hfirst
                  exact Nat.lt_of_lt_of_le hfirst hpower
                cases h
                split
                · rwa [Int.natAbs_neg, Int.natAbs_natCast]
                · rwa [Int.natAbs_natCast]
            · cases h

end Montage.Decimal
