import Montage.Text.Blank

/-!
# Trimmed texts

A text is trimmed if it neither begins nor ends with white space (`IsTrimmed`).  Every text is a
trimmed one between two runs of white space (`exists_trim`), and there is only one such text,
which is what trimming leaves (`trim_append`).
-/

namespace Montage.Text

/-- A text that neither begins nor ends with white space. -/
structure IsTrimmed (cs : List Char) : Prop where
  first : ∀ c ∈ cs.head?, isBlank c = false
  last : ∀ c ∈ cs.getLast?, isBlank c = false

/-- A run of white space, which may be empty. -/
def IsGap (cs : List Char) : Prop := ∀ c ∈ cs, isBlank c = true

theorem isGap_nil : IsGap [] := nofun

theorem isGap_append {before after : List Char} (hbefore : IsGap before) (hafter : IsGap after) :
    IsGap (before ++ after) :=
  List.forall_mem_append.2 ⟨hbefore, hafter⟩

/-- A sign that is not blank stands in no gap. -/
theorem IsGap.not_mem {gap : List Char} {sign : Char} (h : IsGap gap)
    (hsign : isBlank sign = false) : sign ∉ gap := by
  intro hmem
  rw [h sign hmem] at hsign
  cases hsign

theorem isTrimmed_nil : IsTrimmed [] := ⟨nofun, nofun⟩

theorem isTrimmed_of_forall {cs : List Char} (h : ∀ c ∈ cs, isBlank c = false) : IsTrimmed cs :=
  ⟨fun c hc => h c (List.mem_of_mem_head? hc), fun c hc => h c (List.mem_of_mem_getLast? hc)⟩

/-- White space in front is dropped up to the first character that is not blank. -/
theorem dropWhile_gap {gap cs : List Char} (hgap : IsGap gap)
    (hfirst : ∀ c ∈ cs.head?, isBlank c = false) : (gap ++ cs).dropWhile isBlank = cs := by
  rw [List.dropWhile_append_of_pos hgap]
  cases cs with
  | nil => rfl
  | cons c rest => rw [List.dropWhile_cons_of_neg (by simp [hfirst c rfl])]

/-- Trimming leaves the trimmed text between white space. -/
theorem trim_append {before cs after : List Char} (hbefore : IsGap before) (hcs : IsTrimmed cs)
    (hafter : IsGap after) : trim (before ++ cs ++ after) = cs := by
  have hreverse : IsGap after.reverse := fun c hc => hafter c (List.mem_reverse.1 hc)
  by_cases hnil : cs = []
  · -- All is one gap.
    subst hnil
    have hall : (before ++ after ++ []).dropWhile isBlank = [] :=
      dropWhile_gap (isGap_append hbefore hafter) nofun
    rw [List.append_nil] at hall
    rw [List.append_nil, trim, hall, trimEnd_nil]
  · have hfirst : ∀ c ∈ (cs ++ after).head?, isBlank c = false := by
      obtain ⟨c, rest, rfl⟩ := List.exists_cons_of_ne_nil hnil
      exact hcs.first
    have hlast : ∀ c ∈ cs.reverse.head?, isBlank c = false := by
      rw [List.head?_reverse]
      exact hcs.last
    rw [List.append_assoc, trim, dropWhile_gap hbefore hfirst, trimEnd, List.reverse_append,
      dropWhile_gap hreverse hlast, List.reverse_reverse]

theorem IsTrimmed.trim_eq {cs : List Char} (h : IsTrimmed cs) : trim cs = cs := by
  have htrim := trim_append isGap_nil h isGap_nil
  rwa [List.nil_append, List.append_nil] at htrim

/-- What is dropped from the front ends where a character is not blank. -/
theorem first_dropWhile (cs : List Char) :
    ∀ c ∈ (cs.dropWhile isBlank).head?, isBlank c = false := by
  intro c hc
  have hfirst := List.head?_dropWhile_not isBlank cs
  rw [Option.mem_def.1 hc] at hfirst
  exact hfirst

/-- What is dropped from the end is white space, up to a character that is not blank. -/
theorem exists_trimEnd (cs : List Char) :
    ∃ gap, IsGap gap ∧ cs = trimEnd cs ++ gap ∧ ∀ c ∈ (trimEnd cs).getLast?, isBlank c = false := by
  refine ⟨(cs.reverse.takeWhile isBlank).reverse, fun c hc => ?_, ?_, ?_⟩
  · exact List.all_eq_true.1 List.all_takeWhile c (List.mem_reverse.1 hc)
  · rw [trimEnd, ← List.reverse_append, List.takeWhile_append_dropWhile, List.reverse_reverse]
  · rw [trimEnd, List.getLast?_reverse]
    exact first_dropWhile cs.reverse

/-- What begins a trimmed text does not begin with white space. -/
theorem IsTrimmed.first_of_append {cs rest : List Char} (h : IsTrimmed (cs ++ rest)) :
    ∀ c ∈ cs.head?, isBlank c = false := by
  intro c hc
  refine h.first c ?_
  rw [List.head?_append, Option.mem_def.1 hc]
  rfl

/-- Every text is a trimmed one between white space. -/
theorem exists_trim (cs : List Char) :
    ∃ before after, IsGap before ∧ IsGap after ∧ cs = before ++ trim cs ++ after ∧
      IsTrimmed (trim cs) := by
  obtain ⟨after, hafter, hrest, hlast⟩ := exists_trimEnd (cs.dropWhile isBlank)
  refine ⟨cs.takeWhile isBlank, after, ?_, hafter, ?_, fun c hc => ?_, hlast⟩
  · exact fun c hc => List.all_eq_true.1 List.all_takeWhile c hc
  · rw [List.append_assoc, trim, ← hrest, List.takeWhile_append_dropWhile]
  · -- What stays begins like the text behind the first gap.
    have hstart : (trimEnd (cs.dropWhile isBlank)).head? = some c := hc
    refine first_dropWhile cs c ?_
    rw [hrest, List.head?_append, hstart]
    rfl

theorem isTrimmed_trim (cs : List Char) : IsTrimmed (trim cs) := by
  obtain ⟨_, _, -, -, -, h⟩ := exists_trim cs
  exact h

end Montage.Text
