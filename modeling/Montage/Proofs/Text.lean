import Montage.Text.Blank

/-!
# The characters of texts

How many characters of some kind a text has (`countP`), and how many a list of texts has in all
(`weight`).  A text that is trimmed keeps its characters but for the blank ones, and a text that
is split at a character keeps all but the ones at which it is split.
-/

namespace Montage.Text

/-- How many characters of some kind texts have in all. -/
def weight (kind : Char → Bool) (texts : List String) : Nat :=
  (texts.flatMap String.toList).countP kind

variable {kind : Char → Bool} {texts : List String}

theorem weight_nil : weight kind [] = 0 := rfl

theorem weight_cons (s : String) :
    weight kind (s :: texts) = s.toList.countP kind + weight kind texts := by
  rw [weight, List.flatMap_cons, List.countP_append, weight]

/-- Texts that have as many characters of the kind one by one have as many in all. -/
theorem weight_map {f : String → String}
    (h : ∀ s, (f s).toList.countP kind = s.toList.countP kind) :
    weight kind (texts.map f) = weight kind texts := by
  induction texts with
  | nil => rfl
  | cons s rest ih => rw [List.map_cons, weight_cons, weight_cons, h, ih]

/-- Empty texts weigh nothing. -/
theorem weight_filter_ne_empty : weight kind (texts.filter (· != "")) = weight kind texts := by
  induction texts with
  | nil => rfl
  | cons s rest ih =>
      by_cases hs : s = ""
      · subst hs
        rw [List.filter_cons_of_neg (by decide), weight_cons, ih, String.toList_empty,
          List.countP_nil, Nat.zero_add]
      · rw [List.filter_cons_of_pos (by simpa using hs), weight_cons, weight_cons, ih]

theorem countP_dropWhile_isBlank (hblank : ∀ c, isBlank c = true → kind c = false)
    (cs : List Char) : (cs.dropWhile isBlank).countP kind = cs.countP kind := by
  induction cs with
  | nil => rfl
  | cons c rest ih =>
      cases hc : isBlank c with
      | true =>
          rw [List.dropWhile_cons_of_pos hc, ih, List.countP_cons_of_neg (by simp [hblank c hc])]
      | false => rw [List.dropWhile_cons_of_neg (by simp [hc])]

/-- White space at the ends is all that a trimmed text loses. -/
theorem countP_trim (hblank : ∀ c, isBlank c = true → kind c = false) (cs : List Char) :
    (trim cs).countP kind = cs.countP kind := by
  rw [trim, trimEnd, List.countP_reverse, countP_dropWhile_isBlank hblank, List.countP_reverse,
    countP_dropWhile_isBlank hblank]

theorem countP_strip (hblank : ∀ c, isBlank c = true → kind c = false) (s : String) :
    (strip s).toList.countP kind = s.toList.countP kind := by
  rw [strip, String.toList_ofList, countP_trim hblank]

/-- The parts of a text have the characters of the text but for those at which it is split. -/
theorem weight_splitOn {sign : Char} (hsign : kind sign = false) (cs : List Char) :
    weight kind ((cs.splitOn sign).map String.ofList) = cs.countP kind := by
  induction cs with
  | nil => rfl
  | cons c rest ih =>
      rw [List.splitOn_cons_eq_if_modifyHead]
      obtain ⟨first, parts, hparts⟩ := List.exists_cons_of_ne_nil (List.splitOn_ne_nil sign rest)
      rw [hparts] at ih ⊢
      rw [List.countP_cons, ← ih]
      by_cases hc : c = sign
      · subst hc
        rw [if_pos (beq_self_eq_true c), hsign, List.map_cons, weight_cons]
        exact Nat.zero_add _
      · rw [if_neg (by simpa using hc), List.modifyHead_cons, List.map_cons, weight_cons,
          List.map_cons, weight_cons, String.toList_ofList, String.toList_ofList, List.countP_cons]
        omega

/-- Splitting leaves none of the signs at which it splits. -/
theorem not_mem_of_mem_splitOn {sign : Char} {cs part : List Char} (h : part ∈ cs.splitOn sign) :
    sign ∉ part := by
  induction cs generalizing part with
  | nil =>
      obtain rfl : part = [] := by simpa [List.splitOn_nil] using h
      simp
  | cons c rest ih =>
      rw [List.splitOn_cons_eq_if_modifyHead] at h
      by_cases hc : c = sign
      · subst hc
        rcases List.mem_cons.1 (by simpa using h) with rfl | h
        · simp
        · exact ih h
      · rw [if_neg (by simpa using hc)] at h
        obtain ⟨first, others, hparts⟩ := List.exists_cons_of_ne_nil (List.splitOn_ne_nil sign rest)
        rw [hparts] at h ih
        rcases List.mem_cons.1 (by simpa using h) with rfl | h
        · have hfirst : sign ∉ first := ih (by simp)
          simp [hfirst, Ne.symm hc]
        · exact ih (List.mem_cons_of_mem _ h)

/-- A text falls into one part more than it has signs at which it is split. -/
theorem length_splitOn (sign : Char) (cs : List Char) :
    (cs.splitOn sign).length = cs.countP (· == sign) + 1 := by
  induction cs with
  | nil => rfl
  | cons c rest ih =>
      rw [List.splitOn_cons_eq_if_modifyHead, List.countP_cons]
      split
      · rw [List.length_cons, ih]
      · rw [List.length_modifyHead, ih]

theorem weight_append (more : List String) :
    weight kind (texts ++ more) = weight kind texts + weight kind more := by
  rw [weight, List.flatMap_append, List.countP_append]
  rfl

/-- Texts that are joined keep their characters. -/
theorem countP_join (texts : List String) :
    (String.join texts).toList.countP kind = weight kind texts := by
  induction texts with
  | nil => rfl
  | cons s rest ih =>
      rw [String.join_cons, String.toList_append, List.countP_append, ih, weight_cons]

/-- Of texts that are joined by a sign there is one more than there are signs. -/
theorem countP_intercalate (kind : Char → Bool) (sign : String) (h : texts ≠ []) :
    (sign.intercalate texts).toList.countP kind + sign.toList.countP kind =
      weight kind texts + texts.length * sign.toList.countP kind := by
  induction texts with
  | nil => exact absurd rfl h
  | cons s rest ih =>
      rw [weight_cons, List.length_cons, Nat.succ_mul]
      by_cases hrest : rest = []
      · subst hrest
        rw [String.intercalate_singleton, weight_nil, List.length_nil, Nat.zero_mul, Nat.zero_add]
        rfl
      · have hjoined := ih hrest
        rw [String.intercalate_cons_of_ne_nil hrest, String.toList_append, String.toList_append,
          List.countP_append, List.countP_append]
        omega

/-- A sign of another kind between texts adds nothing. -/
theorem countP_intercalate_of_free {sign : String} (h : sign.toList.countP kind = 0) :
    (sign.intercalate texts).toList.countP kind = weight kind texts := by
  by_cases htexts : texts = []
  · subst htexts
    rw [String.intercalate_nil, weight_nil]
    rfl
  · have hjoined := countP_intercalate kind sign htexts
    rwa [h, Nat.mul_zero] at hjoined

/-- Joining adds nothing but the sign between the texts. -/
theorem not_mem_intercalate {c : Char} {sign : String} (hsign : c ∉ sign.toList)
    (h : ∀ s ∈ texts, c ∉ s.toList) : c ∉ (sign.intercalate texts).toList := by
  induction texts with
  | nil => exact List.not_mem_nil
  | cons s rest ih =>
      obtain ⟨hs, hrest⟩ := List.forall_mem_cons.1 h
      by_cases hnone : rest = []
      · subst hnone
        rwa [String.intercalate_singleton]
      · rw [String.intercalate_cons_of_ne_nil hnone]
        simp only [String.toList_append, List.mem_append, hs, hsign, ih hrest, or_self,
          not_false_eq_true]

/-- Joined texts are empty only if the first of them is. -/
theorem intercalate_ne_empty {sign : String} (htexts : texts ≠ []) (h : ∀ s ∈ texts, s ≠ "") :
    sign.intercalate texts ≠ "" := by
  obtain ⟨s, rest, rfl⟩ := List.exists_cons_of_ne_nil htexts
  have hs := h s List.mem_cons_self
  by_cases hnone : rest = []
  · subst hnone
    rwa [String.intercalate_singleton]
  · rw [String.intercalate_cons_of_ne_nil hnone]
    simp [hs]

/-- Texts without a sign are found again between the signs. -/
theorem splitOn_intercalate_toList {sign : String} {c : Char} (hsign : sign.toList = [c])
    (h : ∀ s ∈ texts, c ∉ s.toList) (htexts : texts ≠ []) :
    (sign.intercalate texts).toList.splitOn c = texts.map String.toList := by
  have hfree : ∀ cs ∈ texts.map String.toList, c ∉ cs := List.forall_mem_map.2 h
  rw [String.toList_intercalate, hsign, List.splitOn_intercalate c hfree (by simpa using htexts)]

theorem map_ofList_splitOn_intercalate {sign : String} {c : Char} (hsign : sign.toList = [c])
    (h : ∀ s ∈ texts, c ∉ s.toList) (htexts : texts ≠ []) :
    ((sign.intercalate texts).toList.splitOn c).map String.ofList = texts := by
  have hid : String.ofList ∘ String.toList = id := funext fun _ => String.ofList_toList
  rw [splitOn_intercalate_toList hsign h htexts, List.map_map, hid, List.map_id]

/-- Texts weigh nothing if they have no characters of the kind. -/
theorem weight_eq_zero_iff :
    weight kind texts = 0 ↔ ∀ s ∈ texts, ∀ c ∈ s.toList, kind c = false := by
  induction texts with
  | nil => simp [weight_nil]
  | cons s rest ih => simp [weight_cons, ih, List.countP_eq_zero]

end Montage.Text
