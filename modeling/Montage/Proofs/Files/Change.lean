import Mathlib.Data.List.Basic
import Montage.Files.Change
import Montage.Proofs.Files.Lookup

/-!
# What a change of files changes

Making directories adds directories and nothing else, each at a place to which the path
or a part above it leads afterwards (`makePath_makes`).  Clearing away paths that lead
to files takes away the entries that these paths name and nothing else, and afterwards
none of the paths leads to a file (`isFile_clear_of_mem`), unless the system refuses to remove
one of the files (`exists_held_of_clearUpTo`).
-/

namespace Montage.FileTree

/-- A path, or what is left of it when names are cut off at its end. -/
inductive Above (path : List Char) : List Char → Prop
  | self : Above path path
  | up {part : List Char} (h : Above path part) : Above path (splitLast part).1

theorem Above.trans {path part piece : List Char} (h : Above path part) (h' : Above part piece) :
    Above path piece := by
  induction h' with
  | self => exact h
  | up _ ih => exact ih.up

/-- All that differs are new directories, at places to which the path or a part above it
leads. -/
def Makes (directory : Place) (path : List Char) (before after : FileTree) : Prop :=
  ∀ place, after.entryAt place = before.entryAt place ∨
    (before.entryAt place = none ∧ after.entryAt place = some .directory ∧
      ∃ part, Above path part ∧ after.locate directory true part = some place)

/-- All that differs are entries that are gone, each named by one of the paths that led to
a file. -/
def Clears (directory : Place) (paths : List String) (before after : FileTree) : Prop :=
  ∀ place, after.entryAt place = before.entryAt place ∨
    (after.entryAt place = none ∧ ∃ path ∈ paths, before.isFile directory path = true ∧
      before.locate directory false path.toList = some place)

section

variable {tree : FileTree} {directory : Place}

/-- Which stride is taken does not depend on what follows, as long as something does. -/
theorem stride_append (tree : FileTree) (last : Bool) (here : Place) (name : List Char)
    (rest : List (List Char)) :
    (∀ tail ≠ [], tree.stride last here name (rest ++ tail) = .lost) ∨
      (∃ there, ∀ tail ≠ [], tree.stride last here name (rest ++ tail) = .on there) ∨
      ∃ start names, ∀ tail ≠ [],
        tree.stride last here name (rest ++ tail) = .leap start (names ++ tail) := by
  unfold stride
  split_ifs
  · exact .inl fun _ _ => rfl
  · exact .inr (.inl ⟨here, fun _ _ => rfl⟩)
  · exact .inr (.inl ⟨here.dropLast, fun _ _ => rfl⟩)
  · cases tree.entryAt (here ++ [name]) with
    | none => exact .inl fun _ _ => rfl
    | some entry =>
        cases entry with
        | directory => exact .inr (.inl ⟨here ++ [name], fun _ _ => rfl⟩)
        | file text size => exact .inl fun tail htail => by simp [Stride.onto, htail]
        | link target =>
            by_cases htarget : target.isEmpty = true
            · exact .inl fun tail htail => by simp [Stride.onto, htail, htarget]
            · refine .inr (.inr ⟨if Path.isAbsolute target.toList then [] else here,
                steps target.toList ++ rest, fun tail htail => ?_⟩)
              simp [Stride.onto, htail, htarget]

/-- A walk to a directory goes on with what is reached from there without links. -/
theorem walkAlong_append {follow : Place → List (List Char) → Option Place}
    {here there place : Place} {path tail : List (List Char)} (htail : tail ≠ [])
    (hfollow : ∀ start names, follow start (names ++ [['.']]) = some there →
      follow start (names ++ tail) = some place)
    (hwalk : tree.walkAlong true follow here (path ++ [['.']]) = some there)
    (hplace : tree.walkAlong true follow there tail = some place) :
    tree.walkAlong true follow here (path ++ tail) = some place := by
  induction path generalizing here with
  | nil =>
      obtain rfl : here = there := Option.some.inj hwalk
      exact hplace
  | cons name rest ih =>
      rw [List.cons_append, walkAlong_cons] at hwalk ⊢
      rcases tree.stride_append true here name rest with h | ⟨next, h⟩ | ⟨start, names, h⟩
      · rw [h _ (by simp)] at hwalk
        cases hwalk
      · rw [h _ (by simp)] at hwalk
        rw [h _ htail]
        exact ih hwalk
      · rw [h _ (by simp)] at hwalk
        rw [h _ htail]
        exact hfollow start names hwalk

theorem walk_append {links : Nat} {here there place : Place} {path tail : List (List Char)}
    (htail : tail ≠ []) (hwalk : tree.walk true links here (path ++ [['.']]) = some there)
    (hplace : ∀ follow, tree.walkAlong true follow there tail = some place) :
    tree.walk true links here (path ++ tail) = some place := by
  induction links generalizing here path with
  | zero => exact walkAlong_append htail (by simp) hwalk (hplace _)
  | succ links ih => exact walkAlong_append htail (fun _ _ h => ih h) hwalk (hplace _)

/-- An entry at a free place disturbs nothing. -/
theorem within_put {place : Place} (hplace : place ≠ []) (hfree : tree.entryAt place = none)
    (entry : Entry) : Within tree (tree.put place entry) := by
  intro other found hfound
  rw [entryAt_put tree hplace, if_neg]
  · exact hfound
  · rintro rfl
    rw [hfree] at hfound
    cases hfound

/-- From the directory above it a walk leads to a directory, also past a separator at the
end of its path. -/
theorem walkAlong_directory {follow : Place → List (List Char) → Option Place} {above : Place}
    {name : List Char} {tail : List (List Char)} (hshort : ¬ Text.byteCount name > nameLimit)
    (hdots : ¬ (name == ['.'] || name == ['.', '.']) = true)
    (hdirectory : tree.entryAt (above ++ [name]) = some .directory)
    (htail : tail = [] ∨ tail = [['.']]) :
    tree.walkAlong true follow above (name :: tail) = some (above ++ [name]) := by
  have hstride (rest : List (List Char)) :
      tree.stride true above name rest = .on (above ++ [name]) := by
    rw [Bool.or_eq_true, not_or] at hdots
    rw [stride, if_neg hshort, if_neg hdots.1, if_neg hdots.2, hdirectory]
    rfl
  rw [walkAlong_cons, hstride]
  rcases htail with rfl | rfl
  · rfl
  · rfl

/-- A new directory stands where nothing stood, and its path leads to it. -/
theorem newPlace_eq_ok {path : List Char} {place : Place}
    (h : tree.newPlace directory path = .ok place) :
    place ≠ [] ∧ tree.entryAt place = none ∧
      (tree.put place .directory).locate directory true path = some place := by
  unfold newPlace at h
  split at h
  · cases h
  · split at h
    · cases h
    · next husable =>
        simp only at h
        split at h
        · cases h
        · next name hname =>
            split at h
            · cases h
            · next above habove =>
                split_ifs at h with hdots hlong htaken
                obtain rfl := Except.ok.inj h
                have hplace : above ++ [name] ≠ [] := by simp
                have hfree : tree.entryAt (above ++ [name]) = none := by simpa using htaken
                refine ⟨hplace, hfree, ?_⟩
                have hwalk := walk_mono (within_put hplace hfree .directory) habove
                have hdirectory :
                    (tree.put (above ++ [name]) .directory).entryAt (above ++ [name]) =
                      some .directory := by
                  rw [entryAt_put tree hplace, if_pos rfl]
                rw [locate, if_pos (by simpa using husable), steps,
                  ← List.dropLast_append_getLast? name hname, List.append_assoc]
                refine walk_append (by simp) hwalk fun follow => ?_
                refine walkAlong_directory hlong hdots hdirectory ?_
                split
                · exact .inr rfl
                · exact .inl rfl

theorem makes_refl (directory : Place) (path : List Char) (tree : FileTree) :
    Makes directory path tree tree :=
  fun _ => .inl rfl

theorem Makes.within {path : List Char} {before after : FileTree}
    (h : Makes directory path before after) : Within before after := by
  intro place entry hentry
  rcases h place with hsame | ⟨hfree, -⟩
  · rw [hsame, hentry]
  · rw [hfree] at hentry
    cases hentry

/-- First directories for a part of a path are made, then for the path. -/
theorem Makes.trans {path part : List Char} {before between after : FileTree}
    (hpart : Above path part) (h : Makes directory part before between)
    (h' : Makes directory path between after) : Makes directory path before after := by
  intro place
  rcases h' place with hsame | ⟨hfree, hmade⟩
  · rcases h place with hsame' | ⟨hfree, hmade, piece, hpiece, hlocate⟩
    · exact .inl (hsame.trans hsame')
    · exact .inr ⟨hfree, hsame.trans hmade, piece, hpart.trans hpiece,
        locate_mono h'.within hlocate⟩
  · rcases h place with hsame | ⟨-, hmade', -⟩
    · exact .inr ⟨hsame.symm.trans hfree, hmade⟩
    · rw [hfree] at hmade'
      cases hmade'

theorem makeDirectory_makes (tree : FileTree) (directory : Place) (path : List Char) :
    Makes directory path tree (tree.makeDirectory directory path).1 := by
  unfold makeDirectory
  split
  · next place hnew =>
      obtain ⟨hplace, hfree, hlocate⟩ := newPlace_eq_ok hnew
      intro other
      rw [entryAt_put tree hplace]
      by_cases hother : other = place
      · subst hother
        exact .inr ⟨hfree, if_pos rfl, path, .self, hlocate⟩
      · exact .inl (if_neg hother)
  · exact makes_refl directory path tree

/-- Directories are made from the top down, whatever stops it. -/
theorem makeDirectories_makes (tree : FileTree) (directory : Place) (depth : Nat)
    (path : List Char) :
    Makes directory path tree (tree.makeDirectories directory depth path).1 := by
  induction depth generalizing path with
  | zero => exact makes_refl directory path tree
  | succ depth ih =>
      rcases hsplit : splitLast path with ⟨head, tail⟩
      have habove : Above path head := by
        have hup : Above path (splitLast path).1 := .up .self
        rwa [hsplit] at hup
      have hhead := ih head
      unfold makeDirectories
      rw [hsplit]
      simp only
      split
      · rcases hmade : tree.makeDirectories directory depth head with ⟨between, making⟩
        rw [hmade] at hhead
        have hfirst : Makes directory path tree between :=
          hhead.trans habove (makes_refl directory path between)
        have hboth : Makes directory path tree (between.makeDirectory directory path).1 :=
          hhead.trans habove (makeDirectory_makes between directory path)
        cases making with
        | refused | unusable | tooDeep => exact hfirst
        | made | alreadyThere =>
            simp only
            split
            · exact hfirst
            · exact hboth
      · exact makeDirectory_makes tree directory path

/-- **Making directories adds directories only**, also if it is refused in the end. -/
theorem makePath_makes (tree : FileTree) (directory : Place) (path : String) :
    Makes directory path.toList tree (tree.makePath directory path).1 := by
  have hmakes := tree.makeDirectories_makes directory callLimit path.toList
  unfold makePath
  split
  · next hmade => rwa [hmade] at hmakes
  · next hmade => rwa [hmade] at hmakes
  · next hmade => rwa [hmade] at hmakes
  · next hmade => rwa [hmade] at hmakes

/-- What is left when those of the paths are removed that lead to files. -/
def clear (tree : FileTree) (directory : Place) : List String → FileTree
  | [] => tree
  | path :: rest =>
    clear (if tree.isFile directory path then tree.unlink directory path else tree) directory rest

/-- Removing a file takes away the entry that its path names. -/
theorem unlink_eq_remove {path : String} (h : tree.isFile directory path = true) :
    ∃ named, tree.unlink directory path = tree.remove named ∧ named ≠ [] ∧
      tree.locate directory false path.toList = some named ∧ named ∈ tree.way directory path := by
  obtain ⟨named, hnamed, hroot, hway⟩ := named_of_isFile h
  exact ⟨named, by rw [unlink, hnamed], hroot, hnamed, hway⟩

/-- One step of clearing makes no path lead to a file that did not before. -/
theorem isFile_of_unlink {path other : String} (h : tree.isFile directory path = true)
    (hother : (tree.unlink directory path).isFile directory other = true) :
    tree.isFile directory other = true ∧ other ≠ path := by
  obtain ⟨named, hunlink, hroot, -, hway⟩ := unlink_eq_remove h
  rw [hunlink, isFile_remove hroot] at hother
  refine ⟨hother.1, ?_⟩
  rintro rfl
  exact hother.2 hway

theorem isFile_of_clear {paths : List String} {path : String}
    (h : (tree.clear directory paths).isFile directory path = true) :
    tree.isFile directory path = true := by
  induction paths generalizing tree with
  | nil => exact h
  | cons first rest ih =>
      rw [clear] at h
      split at h
      · next hfirst => exact (isFile_of_unlink hfirst (ih h)).1
      · exact ih h

/-- **No path that was cleared leads to a file**, however the paths are linked. -/
theorem isFile_clear_of_mem {paths : List String} {path : String} (h : path ∈ paths) :
    (tree.clear directory paths).isFile directory path = false := by
  induction paths generalizing tree with
  | nil => cases h
  | cons first rest ih =>
      rw [clear]
      rcases List.mem_cons.1 h with rfl | h
      · rw [Bool.eq_false_iff]
        intro hfile
        have hleft := isFile_of_clear hfile
        split at hleft
        · next hfirst => exact (isFile_of_unlink hfirst hleft).2 rfl
        · next hfirst => exact hfirst hleft
      · exact ih h

/-- Removing the file at a path takes away an entry on the way to another. -/
def Severs (tree : FileTree) (directory : Place) (path other : String) : Prop :=
  tree.isFile directory path = true ∧
    ∃ named ∈ tree.way directory other, tree.locate directory false path.toList = some named

/-- A path to a file is severed by its own removal. -/
theorem severs_self {path : String} (h : tree.isFile directory path = true) :
    tree.Severs directory path path := by
  obtain ⟨named, hnamed, -, hway⟩ := named_of_isFile h
  exact ⟨h, named, hway, hnamed⟩

/-- **What survives the clearing of one path**: the files to which the path does not sever
the way. -/
theorem isFile_clear_singleton {path other : String} :
    (tree.clear directory [path]).isFile directory other = true ↔
      tree.isFile directory other = true ∧ ¬ tree.Severs directory path other := by
  by_cases hfile : tree.isFile directory path = true
  · obtain ⟨named, hunlink, hroot, hnamed, -⟩ := unlink_eq_remove hfile
    have hsevers : tree.Severs directory path other ↔ named ∈ tree.way directory other := by
      constructor
      · rintro ⟨-, place, hway, hplace⟩
        cases hnamed.symm.trans hplace
        exact hway
      · intro hway
        exact ⟨hfile, named, hway, hnamed⟩
    rw [clear, clear, if_pos hfile, hunlink, isFile_remove hroot, hsevers]
  · have hspared : ¬ tree.Severs directory path other := fun hsevers => hfile hsevers.1
    rw [clear, clear, if_neg hfile]
    exact (and_iff_left hspared).symm

/-- **Clearing takes away what the paths name**, and only if it led to a file. -/
theorem clear_clears (tree : FileTree) (directory : Place) (paths : List String) :
    Clears directory paths tree (tree.clear directory paths) := by
  induction paths generalizing tree with
  | nil => exact fun _ => .inl rfl
  | cons path rest ih =>
      intro place
      rw [clear]
      split
      · next hfile =>
          obtain ⟨named, hunlink, hroot, hnamed, -⟩ := unlink_eq_remove hfile
          have hwithin := within_remove tree hroot
          rw [hunlink]
          have hcleared := ih (tree.remove named) place
          rw [entryAt_remove tree hroot] at hcleared
          by_cases hplace : place = named
          · -- The entry is gone from now on: what is cleared behind it brings nothing back.
            refine .inr ⟨?_, path, by simp, hfile, hplace ▸ hnamed⟩
            rcases hcleared with hsame | ⟨hgone, -⟩
            · rw [hsame, if_pos hplace]
            · exact hgone
          · rw [if_neg hplace] at hcleared
            rcases hcleared with hsame | ⟨hgone, other, hother, hfile', hlocate⟩
            · exact .inl hsame
            · refine .inr ⟨hgone, other, List.mem_cons_of_mem _ hother, ?_,
                locate_mono hwithin hlocate⟩
              exact ((isFile_remove hroot).1 hfile').1
      · rcases ih tree place with hsame | ⟨hgone, other, hother, hrest⟩
        · exact .inl hsame
        · exact .inr ⟨hgone, other, List.mem_cons_of_mem _ hother, hrest⟩

/-- What is left when those of the paths are removed that lead to files, up to one at which the
removal is refused, and whether it was refused nowhere. -/
def clearUpTo (tree : FileTree) (directory : Place) (held : List Place) :
    List String → FileTree × Bool
  | [] => (tree, true)
  | path :: rest =>
    if tree.isFile directory path then
      if (tree.locate directory false path.toList).any held.contains then (tree, false)
      else clearUpTo (tree.unlink directory path) directory held rest
    else clearUpTo tree directory held rest

variable {held : List Place}

/-- The removal goes through the paths in order. -/
theorem exists_prefix_clearUpTo (tree : FileTree) (directory : Place) (held : List Place)
    (paths : List String) :
    ∃ cleared, cleared <+: paths ∧
      (tree.clearUpTo directory held paths).1 = tree.clear directory cleared := by
  induction paths generalizing tree with
  | nil => exact ⟨[], List.nil_prefix, rfl⟩
  | cons path rest ih =>
      rw [clearUpTo]
      split
      · next hfile =>
          split
          · exact ⟨[], List.nil_prefix, rfl⟩
          · obtain ⟨cleared, hprefix, hclear⟩ := ih (tree.unlink directory path)
            refine ⟨path :: cleared, (List.prefix_cons_inj path).2 hprefix, ?_⟩
            rw [hclear, clear, if_pos hfile]
      · next hfile =>
          obtain ⟨cleared, hprefix, hclear⟩ := ih tree
          refine ⟨path :: cleared, (List.prefix_cons_inj path).2 hprefix, ?_⟩
          rw [hclear, clear, if_neg hfile]

/-- Where no removal is refused, all paths are cleared. -/
theorem clearUpTo_of_unheld {paths : List String}
    (h : (tree.clearUpTo directory held paths).2 = true) :
    (tree.clearUpTo directory held paths).1 = tree.clear directory paths := by
  induction paths generalizing tree with
  | nil => rfl
  | cons path rest ih =>
      rw [clearUpTo] at h ⊢
      rw [clear]
      split at h
      · next hfile =>
          split at h
          · cases h
          · next hfree =>
              rw [if_pos hfile, if_pos hfile, if_neg hfree]
              exact ih h
      · next hfile =>
          rw [if_neg hfile, if_neg hfile]
          exact ih h

/-- Where a removal is refused, one of the paths leads to a file that is held. -/
theorem exists_held_of_clearUpTo {paths : List String}
    (h : (tree.clearUpTo directory held paths).2 = false) :
    ∃ path ∈ paths, (tree.clearUpTo directory held paths).1.isFile directory path = true ∧
      ((tree.clearUpTo directory held paths).1.locate directory false path.toList).any
        held.contains = true := by
  induction paths generalizing tree with
  | nil => cases h
  | cons path rest ih =>
      rw [clearUpTo] at h ⊢
      split at h
      · next hfile =>
          split at h
          · next hheld =>
              rw [if_pos hfile, if_pos hheld]
              exact ⟨path, List.mem_cons_self, hfile, hheld⟩
          · next hfree =>
              rw [if_pos hfile, if_neg hfree]
              obtain ⟨other, hother, hleft⟩ := ih h
              exact ⟨other, List.mem_cons_of_mem path hother, hleft⟩
      · next hfile =>
          rw [if_neg hfile]
          obtain ⟨other, hother, hleft⟩ := ih h
          exact ⟨other, List.mem_cons_of_mem path hother, hleft⟩

/-- What is cleared in the end was named by one of the paths, wherever the removal stops. -/
theorem clearUpTo_clears (tree : FileTree) (directory : Place) (held : List Place)
    (paths : List String) :
    Clears directory paths tree (tree.clearUpTo directory held paths).1 := by
  obtain ⟨cleared, hprefix, hclear⟩ := tree.exists_prefix_clearUpTo directory held paths
  rw [hclear]
  intro place
  refine (tree.clear_clears directory cleared place).imp_right ?_
  rintro ⟨hgone, path, hpath, hnamed⟩
  exact ⟨hgone, path, hprefix.subset hpath, hnamed⟩

end

end Montage.FileTree
