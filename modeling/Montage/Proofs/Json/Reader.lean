import Montage.Json.Reader
import Montage.Proofs.Text

/-!
# What a JSON text contains

Everything that is read from a JSON text stands in it.  A character of a string is written as
itself or behind a backslash, and what is written by its number has a letter behind the
backslash.  So characters of a kind to which these belong are at least as many in the text as in
the strings that are read from it, and the brackets of a list come on top
(`weight_lt_of_read`).  No list of strings contains its own text.
-/

namespace Montage.Json

open Text (weight weight_nil weight_cons)

theorem skip_suffix (cs : List Char) : skip cs <:+ cs := List.dropWhile_suffix isSpace

/-- What is left behind four digits. -/
theorem suffix_of_fourHex? {n : Nat} {cs rest : List Char} (h : fourHex? cs = some (n, rest)) :
    rest <:+ cs := by
  unfold fourHex? at h
  split at h
  · next a b c d tail =>
      simp only [Option.bind_eq_bind, Option.bind_eq_some_iff] at h
      obtain ⟨a, -, b, -, c, -, d, -, h⟩ := h
      cases h
      exact ⟨[_, _, _, _], rfl⟩
  · cases h

/-- What is left behind an escaped code point. -/
theorem suffix_of_unicodeEscape {n : Nat} {cs rest : List Char}
    (h : unicodeEscape cs = .ok (n, rest)) : rest <:+ cs := by
  unfold unicodeEscape at h
  split at h
  · cases h
  · split at h
    · cases h
    · next high behind hhigh =>
        have hbehind := suffix_of_fourHex? hhigh
        split at h
        · next second =>
            split at h
            · split at h
              · cases h
              · next low last hlow =>
                  split at h
                  · obtain ⟨-, rfl⟩ := Prod.mk.inj (Except.ok.inj h)
                    exact ((suffix_of_fourHex? hlow).trans ⟨['\\', 'u'], rfl⟩).trans hbehind
                  · cases h
                    exact hbehind
            · cases h
              exact hbehind
        · cases h
          exact hbehind

/-- One more character adds one to the count at most. -/
theorem countP_cons_le (kind : Char → Bool) (c : Char) (cs : List Char) :
    cs.countP kind ≤ (c :: cs).countP kind ∧ (c :: cs).countP kind ≤ cs.countP kind + 1 := by
  rw [List.countP_cons]
  split <;> omega

/-- A code point is written in two characters at most. -/
theorem countP_ofCodePoint_le (kind : Char → Bool) (n : Nat) :
    (Text.ofCodePoint n).countP kind ≤ 2 := by
  refine Nat.le_trans List.countP_le_length ?_
  unfold Text.ofCodePoint
  split
  · exact Nat.le_refl 2
  · split <;> simp

/-- A string is not heavier than the characters that it is read from. -/
theorem countP_of_stringBody {kind : Char → Bool} (hbackslash : kind '\\' = true)
    (hletter : kind 'u' = true) {start fuel : Nat} {before cs s rest : List Char}
    (h : stringBody start fuel before cs = .ok (s, rest)) :
    s.countP kind + rest.countP kind ≤ before.countP kind + cs.countP kind := by
  induction fuel generalizing before cs with
  | zero => cases h
  | succ fuel ih =>
      unfold stringBody at h
      split at h
      · cases h
      · -- The closing quote.
        cases h
        have hquote := countP_cons_le kind '"' rest
        rw [List.countP_reverse]
        omega
      · cases h
      · next tail =>
          split at h
          · cases h
          · -- A code point that is written by its number: two characters at most are put in
            -- the place of the backslash and the letter.
            next n behind hescape =>
              have hread := ih h
              have hbehind := (suffix_of_unicodeEscape hescape).countP_le (p := kind)
              have hpoint := countP_ofCodePoint_le kind n
              rw [List.countP_append, List.countP_reverse] at hread
              rw [List.countP_cons_of_pos hbackslash, List.countP_cons_of_pos hletter]
              omega
      · -- A letter behind a backslash stands for one character.
        next written tail _ =>
          split at h
          · next c _ =>
              have hread := ih h
              have hc := countP_cons_le kind c before
              have hwritten := countP_cons_le kind written tail
              rw [List.countP_cons_of_pos hbackslash]
              omega
          · cases h
      · split at h
        · cases h
        · have hread := ih h
          rw [List.countP_cons] at hread ⊢
          omega

/-- What is read as a number is one. -/
theorem of_number {cs rest : List Char} {v : Value} (h : number cs = .ok (v, rest)) :
    ∃ n, v = .number n := by
  unfold number at h
  split at h
  · cases h
  · split at h
    · split at h
      · exact ⟨_, (Prod.mk.inj (Except.ok.inj h)).1.symm⟩
      · cases h
      · cases h
    · split at h
      · exact ⟨_, (Prod.mk.inj (Except.ok.inj h)).1.symm⟩
      · cases h

/-- A word or a number stands for no string and for no list. -/
theorem scalar_of_word_or_number {cs rest : List Char} {v : Value}
    (h : (match word? cs with
      | some found => .ok found
      | none => number cs : Except Error (Value × List Char)) = .ok (v, rest)) :
    v.text? = none ∧ v.isKey = true := by
  have hwords : ∀ w ∈ words, w.2.text? = none ∧ w.2.isKey = true := by decide
  split at h
  · next found hfound =>
      cases h
      obtain ⟨w, hw, hword⟩ := Option.map_eq_some_iff.1 hfound
      obtain ⟨rfl, -⟩ := Prod.mk.inj hword
      exact hwords w (List.mem_of_find?_eq_some hw)
  · obtain ⟨n, rfl⟩ := of_number h
    exact ⟨rfl, rfl⟩

/-- A string begins with a quote. -/
theorem of_value_text {fuel levels : Nat} {cs rest : List Char} {s : String}
    (h : value fuel levels cs = .ok (.text s, rest)) :
    ∃ tail, cs = '"' :: tail ∧ string tail = .ok (s.toList, rest) := by
  cases fuel with
  | zero => cases h
  | succ fuel =>
      unfold value at h
      split at h
      · next tail =>
          split at h
          · next body behind hbody =>
              cases h
              exact ⟨tail, rfl, by rw [hbody, String.toList_ofList]⟩
          · cases h
      · split at h
        · cases h
        · split at h
          · cases h
          · split at h <;> cases h
      · split at h
        · cases h
        · split at h
          · cases h
          · split at h <;> cases h
      · cases (scalar_of_word_or_number h).1

/-- A list begins with a bracket, and its items follow if it has any. -/
theorem of_value_list {fuel levels : Nat} {cs rest : List Char} {list : List Value}
    (h : value fuel levels cs = .ok (.list list, rest)) :
    ∃ tail, cs = '[' :: tail ∧
      (list = [] ∨ ∃ fuel levels, items fuel levels (skip tail) = .ok (list, rest)) := by
  cases fuel with
  | zero => cases h
  | succ fuel =>
      unfold value at h
      split at h
      · split at h <;> cases h
      · next tail =>
          refine ⟨tail, rfl, ?_⟩
          split at h
          · cases h
          · next levels =>
              split at h
              · cases h
                exact .inl rfl
              · split at h
                · next read behind hitems =>
                    cases h
                    exact .inr ⟨fuel, levels, hitems⟩
                · cases h
      · split at h
        · cases h
        · split at h
          · cases h
          · split at h <;> cases h
      · cases (scalar_of_word_or_number h).2

section

variable {kind : Char → Bool} {texts : List String}

/-- Nor is a string together with its quotes. -/
theorem countP_of_value_text (hbackslash : kind '\\' = true) (hletter : kind 'u' = true)
    {fuel levels : Nat} {cs rest : List Char} {s : String}
    (h : value fuel levels cs = .ok (.text s, rest)) :
    s.toList.countP kind + rest.countP kind ≤ cs.countP kind := by
  obtain ⟨tail, rfl, hstring⟩ := of_value_text h
  have hbody := countP_of_stringBody hbackslash hletter hstring
  have hquote := countP_cons_le kind '"' tail
  rw [List.countP_nil] at hbody
  omega

/-- Strings between commas are not heavier than the characters that they are read from. -/
theorem weight_of_items (hbackslash : kind '\\' = true) (hletter : kind 'u' = true)
    {fuel levels : Nat} {cs rest : List Char}
    (h : items fuel levels cs = .ok (texts.map .text, rest)) :
    weight kind texts ≤ cs.countP kind := by
  induction fuel generalizing cs rest texts with
  | zero => cases h
  | succ fuel ih =>
      unfold items at h
      split at h
      · cases h
      · next v behind hv =>
          cases texts with
          | nil =>
              split at h
              · cases h
              · split at h <;> cases h
              · cases h
          | cons s texts =>
              rw [List.map_cons] at h
              have hskip := (skip_suffix behind).countP_le (p := kind)
              rw [weight_cons]
              split at h
              · -- The last of them.
                obtain ⟨hitem, -⟩ := Prod.mk.inj (Except.ok.inj h)
                obtain ⟨rfl, hnone⟩ := List.cons.inj hitem
                obtain rfl := List.map_eq_nil_iff.1 hnone.symm
                have hfirst := countP_of_value_text hbackslash hletter hv
                rw [weight_nil]
                omega
              · -- More of them behind a comma.
                next tail hcomma =>
                  split at h
                  · next list last hlist =>
                      obtain ⟨hitem, -⟩ := Prod.mk.inj (Except.ok.inj h)
                      obtain ⟨rfl, rfl⟩ := List.cons.inj hitem
                      have hfirst := countP_of_value_text hbackslash hletter hv
                      have hrest := ih hlist
                      have hnext := (skip_suffix tail).countP_le (p := kind)
                      have hsign := countP_cons_le kind ',' tail
                      rw [hcomma] at hskip
                      omega
                  · cases h
              · cases h

/-- What is read from a whole text stands behind white space. -/
theorem value_of_read {s : String} {v : Value} (h : read s = .ok v) :
    ∃ fuel rest, value fuel callLimit (skip s.toList) = .ok (v, rest) := by
  unfold read readChars at h
  split at h
  · cases h
  · split at h
    · cases h
    · next found rest hvalue =>
        simp only at h
        split at h
        · cases h
          exact ⟨_, rest, hvalue⟩
        · cases h

/-- A text that opens more lists and mappings one inside the other than the runtime follows. -/
def NestsTooDeep (s : String) : Prop := ∃ remaining, read s = .error ⟨.tooDeep, remaining⟩

/-- A word or a number is never too deep. -/
theorem not_tooDeep_of_word_or_number {cs : List Char} {remaining : Nat} :
    (match word? cs with
      | some found => .ok found
      | none => number cs : Except Error (Value × List Char)) ≠ .error ⟨.tooDeep, remaining⟩ := by
  intro h
  split at h
  · cases h
  · unfold number at h
    split at h
    · cases h
    · split at h
      · split at h <;> cases h
      · split at h <;> cases h

/-- A text that is too deep is not blank: it begins with a bracket or a brace. -/
theorem NestsTooDeep.isBlankText {s : String} (h : NestsTooDeep s) :
    Text.isBlankText s = false := by
  refine eq_false_of_ne_true fun hblank => ?_
  have hblank : ∀ c ∈ s.toList, Text.isBlank c = true := by simpa [Text.isBlankText] using hblank
  have hnot {c : Char} {tail : List Char} (hc : Text.isBlank c = false) :
      skip s.toList ≠ c :: tail := by
    intro hskip
    have hmem : c ∈ s.toList := (skip_suffix _).subset (hskip ▸ List.mem_cons_self)
    rw [hblank c hmem] at hc
    cases hc
  obtain ⟨remaining, h⟩ := h
  unfold read readChars at h
  split at h
  · cases h
  · split at h
    · next e hvalue =>
        obtain rfl := Except.error.inj h
        unfold value at hvalue
        split at hvalue
        · next hquote => exact hnot (by decide) hquote
        · next hbracket => exact hnot (by decide) hbracket
        · next hbrace => exact hnot (by decide) hbrace
        · exact not_tooDeep_of_word_or_number hvalue
    · simp only at h
      split at h <;> cases h

/-- The text of a list has a bracket in it. -/
theorem bracket_mem_of_read {s : String} {list : List Value} (h : read s = .ok (.list list)) :
    '[' ∈ s.toList := by
  obtain ⟨fuel, rest, hvalue⟩ := value_of_read h
  obtain ⟨tail, htail, -⟩ := of_value_list hvalue
  refine (skip_suffix s.toList).subset ?_
  rw [htail]
  exact List.mem_cons_self

/-- **The text of a list of strings is heavier than the strings.** -/
theorem weight_lt_of_read (hbackslash : kind '\\' = true) (hletter : kind 'u' = true)
    (hbracket : kind '[' = true) {s : String}
    (h : read s = .ok (.list (texts.map .text))) : weight kind texts < s.toList.countP kind := by
  obtain ⟨fuel, rest, hvalue⟩ := value_of_read h
  obtain ⟨tail, htail, hitems⟩ := of_value_list hvalue
  have hskip := (skip_suffix s.toList).countP_le (p := kind)
  rw [htail, List.countP_cons_of_pos hbracket] at hskip
  rcases hitems with hnone | ⟨fuel, levels, hitems⟩
  · rw [List.map_eq_nil_iff.1 hnone, weight_nil]
    omega
  · have hweight := weight_of_items hbackslash hletter hitems
    have hbehind := (skip_suffix tail).countP_le (p := kind)
    omega

end

end Montage.Json
