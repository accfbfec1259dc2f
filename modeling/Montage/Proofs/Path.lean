import Montage.Path
import Montage.Proofs.Text

/-!
# Paths by their names

A path is compared with another name by name, never letter by letter: `/data` is not
above `/database`.  The lemmas here relate the text of a path to the list of its names.
A plain path is the text of its names, and what two paths have in common is the first
path exactly if its names begin those of the second (`common_eq_iff`).
-/

namespace Montage.Path

/-- A name that can stand between separators: not empty, not `.`, and in one piece. -/
structure IsName (name : List Char) : Prop where
  ne_nil : name ≠ []
  ne_dot : name ≠ ['.']
  noSeparator : '/' ∉ name

theorem isName_of_mem_names {path name : List Char} (h : name ∈ names path) : IsName name := by
  obtain ⟨hmem, hplain⟩ := List.mem_filter.1 h
  simp only [Bool.and_eq_true, Bool.not_eq_true', bne_iff_ne, ne_eq] at hplain
  exact ⟨by simpa using hplain.1, hplain.2, Text.not_mem_of_mem_splitOn hmem⟩

/-- Names that can stand between separators pass the choice of names. -/
theorem filter_eq_self_of_isName {parts : List (List Char)} (h : ∀ name ∈ parts, IsName name) :
    (parts.filter fun name => !name.isEmpty && name != ['.']) = parts := by
  rw [List.filter_eq_self]
  intro name hname
  have hne := (h name hname).ne_nil
  have hdot := (h name hname).ne_dot
  simp [hne, hdot]

theorem names_separator (path : List Char) : names ('/' :: path) = names path := by
  simp [names, List.splitOn_cons_eq_if_modifyHead]

/-- The names of the path with the given names. -/
theorem names_ofNames {parts : List (List Char)} (h : ∀ name ∈ parts, IsName name) :
    names (ofNames parts) = parts := by
  rw [ofNames, names_separator]
  cases parts with
  | nil => rfl
  | cons first others =>
      rw [names, List.splitOn_intercalate '/' (fun name hname => (h name hname).noSeparator)
        (by simp)]
      exact filter_eq_self_of_isName h

/-- Following names keeps to the names. -/
theorem mem_of_mem_follow {above path : List (List Char)} {name : List Char}
    (h : name ∈ follow above path) : name ∈ above ∨ name ∈ path := by
  induction path generalizing above with
  | nil => exact .inl h
  | cons first rest ih =>
      unfold follow at h
      split at h
      · rcases ih h with h | h
        · exact .inl (List.mem_of_mem_tail h)
        · exact .inr (List.mem_cons_of_mem _ h)
      · rcases ih h with h | h
        · rcases List.mem_cons.1 h with rfl | h
          · exact .inr (by simp)
          · exact .inl h
        · exact .inr (List.mem_cons_of_mem _ h)

theorem isName_of_mem_plainNames {path name : List Char} (h : name ∈ plainNames path) :
    IsName name := by
  rw [plainNames, List.mem_reverse] at h
  rcases mem_of_mem_follow h with h | h
  · cases h
  · exact isName_of_mem_names h

/-- A plain path does not begin with two separators, if it can be told from its
names. -/
theorem plainForm_eq (path : List Char) :
    plainForm path = ofNames (plainNames path) ∨
      plainForm path = '/' :: ofNames (plainNames path) := by
  unfold plainForm
  split
  · exact .inl rfl
  · exact .inr rfl
  · exact .inl rfl

/-- A plain path that does not begin with two separators is the text of its names. -/
theorem plainForm_eq_ofNames {path : List Char} (h : ∀ rest, plainForm path ≠ '/' :: '/' :: rest) :
    plainForm path = ofNames (names (plainForm path)) := by
  have hnames : names (ofNames (plainNames path)) = plainNames path :=
    names_ofNames fun _ => isName_of_mem_plainNames
  rcases plainForm_eq path with hplain | hdouble
  · rw [hplain, hnames]
  · exact absurd hdouble (h _)

/-- Below one base, paths that are both absolute or both relative are told apart. -/
theorem join_inj {base path other : String}
    (h : isAbsolute path.toList = isAbsolute other.toList) :
    join base path = join base other ↔ path = other := by
  refine ⟨fun hjoin => ?_, congrArg _⟩
  have hchars : joinChars base.toList path.toList = joinChars base.toList other.toList :=
    String.ofList_injective hjoin
  unfold joinChars at hchars
  rw [← h] at hchars
  split at hchars
  · exact String.toList_inj.1 hchars
  · split at hchars
    · exact String.toList_inj.1 (List.append_cancel_left hchars)
    · exact String.toList_inj.1 (List.cons.inj (List.append_cancel_left hchars)).2

/-- What two lists of names have in common begins both. -/
theorem commonNames_prefix (a b : List (List Char)) :
    commonNames a b <+: a ∧ commonNames a b <+: b := by
  fun_induction commonNames a b with
  | case1 x as y bs heq ih =>
      obtain rfl : x = y := by simpa using heq
      exact ⟨List.cons_prefix_cons.2 ⟨rfl, ih.1⟩, List.cons_prefix_cons.2 ⟨rfl, ih.2⟩⟩
  | case2 | case3 => exact ⟨List.nil_prefix, List.nil_prefix⟩

/-- A list of names that begins another is what both have in common. -/
theorem commonNames_of_prefix {a b : List (List Char)} (h : a <+: b) : commonNames a b = a := by
  obtain ⟨rest, rfl⟩ := h
  induction a with
  | nil => simp [commonNames]
  | cons x as ih => simp [commonNames, ih]

/-- If what two paths have in common is the first, then the second lies under it, name
by name. -/
theorem prefix_of_common_eq {root target : List Char} (h : common root target = root) :
    names root <+: names target := by
  have hcommon := commonNames_prefix (names root) (names target)
  have hnames : names (common root target) = commonNames (names root) (names target) :=
    names_ofNames fun name hname => isName_of_mem_names (hcommon.1.subset hname)
  rw [h] at hnames
  rw [hnames]
  exact hcommon.2

/-- For a first path that is the text of its names the converse holds too. -/
theorem common_eq_iff {root target : List Char} (hroot : root = ofNames (names root)) :
    common root target = root ↔ names root <+: names target := by
  refine ⟨prefix_of_common_eq, fun h => ?_⟩
  rw [common, commonNames_of_prefix h, ← hroot]

end Montage.Path
