import Montage.Files.Real
import Montage.Proofs.Path

/-!
# Which paths have a real path

The resolution of links fails for one reason only, a name that the system does not take
because of a null character in it or a half of a surrogate pair.  On a machine whose links
lead nowhere with such a name, every path without one has a real path (`realPath_eq_ok`),
whatever is missing on the way and however the links run in circles.
-/

namespace Montage.FileTree

/-- Characters that the system takes. -/
def Clean (cs : List Char) : Prop := Text.isSendable cs = true

/-- The system takes the targets of all links of the tree. -/
def CleanLinks (tree : FileTree) : Prop :=
  ∀ place target, (place, Entry.link target) ∈ tree.entries → Clean target.toList

/-- No link that was met resolves to a path that the system does not take. -/
def CleanMet (met : List (List Char × Option (List Char))) : Prop :=
  ∀ next path, (next, some path) ∈ met → Clean path

theorem Clean.append {a b : List Char} (ha : Clean a) (hb : Clean b) : Clean (a ++ b) := by
  rw [Clean, Text.isSendable, List.all_append]
  exact Bool.and_eq_true_iff.2 ⟨ha, hb⟩

theorem Clean.of_subset {a b : List Char} (hb : Clean b) (h : a ⊆ b) : Clean a :=
  List.all_eq_true.2 fun c hc => List.all_eq_true.1 hb c (h hc)

theorem Clean.cons_separator {cs : List Char} (h : Clean cs) : Clean ('/' :: cs) :=
  Clean.append (a := ['/']) rfl h

theorem clean_joinChars {base path : List Char} (hbase : Clean base) (hpath : Clean path) :
    Clean (Path.joinChars base path) := by
  have hseparator := hpath.cons_separator
  unfold Path.joinChars
  split
  · exact hpath
  · split
    · exact hbase.append hpath
    · exact hbase.append hseparator

theorem clean_dropSeparators {path : List Char} (h : Clean path) :
    Clean (Path.dropSeparators path) := by
  unfold Path.dropSeparators
  split
  · exact h
  · refine h.of_subset fun c hc => ?_
    exact List.mem_reverse.1 ((List.dropWhile_sublist _).subset (List.mem_reverse.1 hc))

theorem clean_stepUp {path : List Char} (h : Clean path) : Clean (stepUp path) := by
  have hdots : Clean ['.', '.'] := rfl
  have hhead : Clean (Path.split path).1 := by
    refine clean_dropSeparators (h.of_subset fun c hc => ?_)
    exact List.mem_reverse.1 ((List.dropWhile_sublist _).subset (List.mem_reverse.1 hc))
  unfold stepUp
  split
  · exact hdots
  · simp only
    split
    · exact clean_joinChars (clean_joinChars hhead hdots) hdots
    · exact hhead

/-- What a link leads to stands in the tree. -/
theorem clean_linkTarget {tree : FileTree} (h : tree.CleanLinks) {directory : Place}
    {path target : List Char} (htarget : tree.linkTarget? directory path = some target) :
    Clean target := by
  unfold linkTarget? at htarget
  split at htarget
  · next text hentry =>
      cases htarget
      obtain ⟨place, -, hplace⟩ := Option.bind_eq_some_iff.1 hentry
      unfold entryAt at hplace
      split at hplace
      · cases hplace
      · obtain ⟨e, hfind, hlink⟩ := Option.map_eq_some_iff.1 hplace
        refine h e.1 text ?_
        rw [← hlink]
        exact List.mem_of_find?_eq_some hfind
  · cases htarget

theorem CleanMet.cons {met : List (List Char × Option (List Char))} (h : CleanMet met)
    (next : List Char) (resolved : Option (List Char)) (hresolved : ∀ path ∈ resolved, Clean path) :
    CleanMet ((next, resolved) :: met) := by
  intro other path hmem
  rcases List.mem_cons.1 hmem with heq | hmem
  · cases heq
    exact hresolved path rfl
  · exact h other path hmem

/-- The resolution goes through and stays clean.  The induction is on the steps; a link
is resolved with the same lemma, so both results of a step are known to be clean before
the rest of the path is looked at. -/
theorem resolveFrom_eq_ok {tree : FileTree} (htree : tree.CleanLinks) (directory : Place)
    (fuel : Nat) (met : List (List Char × Option (List Char))) (path rest : List Char)
    (hmet : CleanMet met) (hpath : Clean path) (hrest : Clean rest) :
    ∃ r, tree.resolveFrom directory fuel met path rest = .ok r ∧ Clean r.path ∧ CleanMet r.met := by
  induction fuel generalizing met path rest with
  | zero => exact ⟨_, rfl, clean_joinChars hpath hrest, hmet⟩
  | succ fuel ih =>
      unfold resolveFrom
      split
      · exact ⟨_, rfl, hpath, hmet⟩
      · have hname : Clean (rest.takeWhile (· != '/')) :=
          hrest.of_subset (List.takeWhile_sublist _).subset
        have hlater : Clean ((rest.dropWhile (· != '/')).drop 1) :=
          hrest.of_subset ((List.drop_sublist _ _).trans (List.dropWhile_sublist _)).subset
        have hnext := clean_joinChars hpath hname
        simp only
        split
        · exact ih met path _ hmet hpath hlater
        · split
          · exact ih met _ _ hmet (clean_stepUp hpath) hlater
          · -- What is looked up is clean, so the system takes it.
            have hsent :
                (!Text.isSendable (Path.joinChars path (rest.takeWhile (· != '/')))) = false :=
              congrArg not hnext
            rw [hsent, if_neg Bool.false_ne_true]
            split
            · exact ih met _ _ hmet hnext hlater
            · -- A link: met before and resolved, met before and not resolved, or new.
              next target htarget =>
                split
                · next resolved hlookup =>
                    obtain ⟨before, after, rfl, -⟩ := List.lookup_eq_some_iff.1 hlookup
                    have hresolved := hmet _ _ (List.mem_append_right before List.mem_cons_self)
                    exact ih _ _ _ hmet hresolved hlater
                · exact ⟨_, rfl, clean_joinChars hnext hlater, hmet⟩
                · -- Its target is resolved first, then what follows it.
                  have hstart : Clean (if Path.isAbsolute target then ['/'] else path) := by
                    split
                    · rfl
                    · exact hpath
                  obtain ⟨⟨inner, complete, met'⟩, hinner, hpath', hmet'⟩ :=
                    ih _ _ _ (hmet.cons (Path.joinChars path (rest.takeWhile (· != '/'))) none
                      (by simp)) hstart (clean_linkTarget htree htarget)
                  rw [hinner]
                  cases complete with
                  | false => exact ⟨_, rfl, clean_joinChars hpath' hlater, hmet'⟩
                  | true =>
                      refine ih _ _ _ ?_ hpath' hlater
                      exact hmet'.cons _ (some inner) (by simpa using hpath')

/-- **Every path that the system takes has a real path.** -/
theorem realPath_eq_ok {tree : FileTree} (htree : tree.CleanLinks) (directory : String)
    {path : String} (hpath : Clean path.toList) :
    ∃ real, tree.realPath directory path = .ok real := by
  have hstart : Clean (if Path.isAbsolute path.toList then ['/'] else []) := by
    split <;> rfl
  obtain ⟨r, hr, -⟩ := resolveFrom_eq_ok htree (Path.plainNames directory.toList)
    (tree.resolutionLimit path.toList) [] _ path.toList (fun _ _ h => by cases h) hstart hpath
  refine ⟨Path.plainForm (Path.joinChars directory.toList r.path), ?_⟩
  simp only [realPath, hr]
  rfl

/-- A real path is the text of its names, unless it begins with two separators. -/
theorem eq_ofNames_of_realPath {tree : FileTree} {directory path : String} {real : List Char}
    (h : tree.realPath directory path = .ok real) (hsingle : ∀ rest, real ≠ '/' :: '/' :: rest) :
    real = Path.ofNames (Path.names real) := by
  simp only [realPath] at h
  cases hr : tree.resolveFrom (Path.plainNames directory.toList)
      (tree.resolutionLimit path.toList) [] (if Path.isAbsolute path.toList then ['/'] else [])
      path.toList with
  | error fault =>
      rw [hr] at h
      cases h
  | ok r =>
      rw [hr] at h
      cases h
      exact Path.plainForm_eq_ofNames hsingle

end Montage.FileTree
