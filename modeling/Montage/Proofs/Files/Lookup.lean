import Mathlib.Tactic.SplitIfs
import Montage.Files.Lookup

/-!
# Look-ups in trees that change

What a path leads to is decided by the entries on its way, the places that the look-up
comes by until it ends.  If one of them is taken away, the path leads to nothing; if
another entry is taken away, it leads to what it led to before (`find?_remove`).  And a
look-up that succeeds is not disturbed by entries that come in addition (`locate_mono`).

A path names an entry and leads to an entry.  Only if the last one is a link these
differ, and the entry that is named is on the way in any case.
-/

namespace Montage.FileTree

/-- All that stands in a tree stands in the larger one, too. -/
def Within (tree larger : FileTree) : Prop :=
  ∀ place entry, tree.entryAt place = some entry → larger.entryAt place = some entry

/-- Taking away one entry leaves all others. -/
theorem entryAt_remove (tree : FileTree) {place : Place} (hplace : place ≠ []) (other : Place) :
    (tree.remove place).entryAt other = if other = place then none else tree.entryAt other := by
  by_cases hother : other = place
  · rw [if_pos hother, hother, entryAt_remove_self tree hplace]
  · rw [if_neg hother]
    unfold entryAt remove
    congr 2
    rw [List.find?_filter]
    congr 1
    funext e
    by_cases he : e.1 = other
    · simp [he, hother]
    · simp [he]

/-- Putting an entry changes one place. -/
theorem entryAt_put (tree : FileTree) {place : Place} (hplace : place ≠ []) (entry : Entry)
    (other : Place) :
    (tree.put place entry).entryAt other =
      if other = place then some entry else tree.entryAt other := by
  have hremoved := tree.entryAt_remove hplace other
  unfold entryAt remove at hremoved
  unfold entryAt put
  rw [List.find?_append]
  by_cases hother : other = place
  · -- Nothing else stands at the place, so that the new entry is found.
    have hnone := tree.entryAt_remove_self hplace
    simp only [entryAt, remove, List.isEmpty_iff, hplace, if_false, Option.map_eq_none_iff] at hnone
    simp [hother, hplace, hnone]
  · rw [if_neg hother] at hremoved ⊢
    rw [← hremoved]
    simp [Ne.symm hother]

theorem within_remove (tree : FileTree) {place : Place} (hplace : place ≠ []) :
    Within (tree.remove place) tree := by
  intro other entry hentry
  rw [entryAt_remove tree hplace] at hentry
  split at hentry
  · cases hentry
  · exact hentry

/-- What the first name of a path makes of a walk. -/
inductive Stride
  | lost
  | on (there : Place)
  | ends (place : Place)
  /-- A link is followed, and the walk goes on along other names. -/
  | leap (start : Place) (names : List (List Char))

/-- The stride onto what stands at a name. -/
def Stride.onto (last : Bool) (here : Place) (name : List Char) (rest : List (List Char)) :
    Option Entry → Stride
  | none => .lost
  | some .directory => .on (here ++ [name])
  | some (.file _ _) => if rest.isEmpty then .ends (here ++ [name]) else .lost
  | some (.link target) =>
    if rest.isEmpty && !last then .ends (here ++ [name])
    else if target.isEmpty then .lost
    else .leap (if Path.isAbsolute target.toList then [] else here) (steps target.toList ++ rest)

/-- The stride along the first name of a path. -/
def stride (tree : FileTree) (last : Bool) (here : Place) (name : List Char)
    (rest : List (List Char)) : Stride :=
  if Text.byteCount name > nameLimit then .lost
  else if name == ['.'] then .on here
  else if name == ['.', '.'] then .on here.dropLast
  else .onto last here name rest (tree.entryAt (here ++ [name]))

/-- The place that is looked at for the first name of a path. -/
def glance (here : Place) (name : List Char) : List Place :=
  if name == ['.'] || name == ['.', '.'] then [] else [here ++ [name]]

/-- A walk takes one stride after the other. -/
theorem walkAlong_cons (tree : FileTree) (last : Bool)
    (follow : Place → List (List Char) → Option Place) (here : Place) (name : List Char)
    (rest : List (List Char)) :
    tree.walkAlong last follow here (name :: rest) =
      match tree.stride last here name rest with
      | .lost => none
      | .on there => tree.walkAlong last follow there rest
      | .ends place => some place
      | .leap start names => follow start names := by
  rw [walkAlong, stride]
  split
  · rfl
  · split
    · rfl
    · split
      · rfl
      · cases tree.entryAt (here ++ [name]) with
        | none => rfl
        | some entry =>
            cases entry with
            | directory => rfl
            | file text size => cases rest <;> rfl
            | link target =>
                simp only [Stride.onto]
                split
                · rfl
                · split <;> rfl

/-- Further entries change no stride but one that is lost. -/
theorem stride_within {tree larger : FileTree} (h : Within tree larger) {last : Bool}
    {here : Place} {name : List Char} {rest : List (List Char)}
    (hfound : tree.stride last here name rest ≠ .lost) :
    larger.stride last here name rest = tree.stride last here name rest := by
  unfold stride at hfound ⊢
  split_ifs at hfound ⊢
  · exact absurd rfl hfound
  · rfl
  · rfl
  · cases hentry : tree.entryAt (here ++ [name]) with
    | none => simp [hentry, Stride.onto] at hfound
    | some entry => rw [h _ _ hentry]

/-- A stride is lost once the entry is taken away that it looks at, and otherwise stays
as it is. -/
theorem stride_remove (tree : FileTree) {place : Place} (hplace : place ≠ []) (last : Bool)
    (here : Place) (name : List Char) (rest : List (List Char)) :
    (tree.remove place).stride last here name rest =
      if place ∈ glance here name then .lost else tree.stride last here name rest := by
  unfold stride glance
  rw [entryAt_remove tree hplace]
  by_cases hhere : here ++ [name] = place
  · split_ifs <;> simp_all [Stride.onto]
  · split_ifs <;> simp_all [Stride.onto, Ne.symm hhere]

/-- Whether the last link is followed makes a difference to the stride onto that link
only. -/
theorem stride_named (tree : FileTree) (here : Place) (name : List Char)
    (rest : List (List Char)) :
    tree.stride false here name rest = tree.stride true here name rest ∨
      (tree.stride false here name rest = .ends (here ++ [name]) ∧
        ∃ target, tree.entryAt (here ++ [name]) = some (.link target)) := by
  unfold stride
  split_ifs
  · exact .inl rfl
  · exact .inl rfl
  · exact .inl rfl
  · cases hentry : tree.entryAt (here ++ [name]) with
    | none => exact .inl rfl
    | some entry =>
        cases entry with
        | directory | file => exact .inl rfl
        | link target =>
            cases rest with
            | nil => exact .inr ⟨rfl, target, rfl⟩
            | cons => exact .inl rfl

/-- A walk that ends behind a name ends where it looks. -/
theorem mem_glance_of_stride {tree : FileTree} {last : Bool} {here place : Place}
    {name : List Char} {rest : List (List Char)}
    (h : tree.stride last here name rest = .ends place) : place ∈ glance here name := by
  unfold stride at h
  unfold glance
  split_ifs at h with hlong hdot hup
  have hends : place = here ++ [name] := by
    unfold Stride.onto at h
    split at h
    · cases h
    · cases h
    · split at h
      · exact (Stride.ends.inj h).symm
      · cases h
    · split_ifs at h
      exact (Stride.ends.inj h).symm
  simp [hends, hdot, hup]

/-- The places that a walk looks at, and the place at which it ends. -/
def wayAlong (tree : FileTree) (further : Place → List (List Char) → List Place) (here : Place) :
    List (List Char) → List Place
  | [] => [here]
  | name :: rest =>
    glance here name ++
      match tree.stride true here name rest with
      | .lost => []
      | .on there => wayAlong tree further there rest
      | .ends place => [place]
      | .leap start names => further start names

/-- The places that a walk looks at which follows up to `links` links. -/
def wayWithin (tree : FileTree) : Nat → Place → List (List Char) → List Place
  | 0, here, path => tree.wayAlong (fun _ _ => []) here path
  | links + 1, here, path => tree.wayAlong (wayWithin tree links) here path

/-- The places that the look-up of a path looks at, and the place at which it ends. -/
def way (tree : FileTree) (directory : Place) (path : String) : List Place :=
  if isUsable path.toList then
    tree.wayWithin linkLimit (if Path.isAbsolute path.toList then [] else directory)
      (steps path.toList)
  else []

section

variable {tree : FileTree} {here place : Place} {path : List (List Char)}

/-- A walk along names once an entry is taken away, provided the same is known of the
walks behind links. -/
theorem walkAlong_remove {follow follow' : Place → List (List Char) → Option Place}
    {further : Place → List (List Char) → List Place} (hplace : place ≠ [])
    (hfollow : ∀ start names,
      (follow' start names).bind (tree.remove place).entryAt =
        if place ∈ further start names then none
        else (follow start names).bind tree.entryAt) :
    ((tree.remove place).walkAlong true follow' here path).bind (tree.remove place).entryAt =
      if place ∈ tree.wayAlong further here path then none
      else (tree.walkAlong true follow here path).bind tree.entryAt := by
  induction path generalizing here with
  | nil =>
      simp only [walkAlong, wayAlong, Option.bind_some, List.mem_singleton,
        entryAt_remove tree hplace, eq_comm]
  | cons name rest ih =>
      rw [walkAlong_cons, walkAlong_cons, wayAlong, stride_remove tree hplace]
      by_cases hglance : place ∈ glance here name
      · simp [hglance]
      · simp only [List.mem_append, hglance, if_false, false_or]
        cases hstride : tree.stride true here name rest with
        | lost => simp
        | on there => exact ih
        | ends reached =>
            simp only [Option.bind_some, List.mem_singleton, entryAt_remove tree hplace, eq_comm]
        | leap start names => exact hfollow start names

/-- The walks behind a link follow one link less. -/
theorem walk_remove (links : Nat) (hplace : place ≠ []) :
    ((tree.remove place).walk true links here path).bind (tree.remove place).entryAt =
      if place ∈ tree.wayWithin links here path then none
      else (tree.walk true links here path).bind tree.entryAt := by
  induction links generalizing here path with
  | zero => exact walkAlong_remove hplace (by simp)
  | succ links ih => exact walkAlong_remove hplace fun _ _ => ih

/-- **What a path leads to depends on its way only.**  It leads to nothing once an entry
on its way is taken away, and to the same as before if the entry is not on its way. -/
theorem find?_remove (tree : FileTree) (directory : Place) (hplace : place ≠ []) (path : String) :
    (tree.remove place).find? directory path =
      if place ∈ tree.way directory path then none else tree.find? directory path := by
  unfold find? locate way
  split
  · exact walk_remove linkLimit hplace
  · simp

/-- Further entries do not disturb a walk along names that succeeds, provided the same is
known of the walks behind links. -/
theorem walkAlong_mono {larger : FileTree} (h : Within tree larger) {last : Bool}
    {follow follow' : Place → List (List Char) → Option Place}
    (hfollow : ∀ start names, follow start names = some place → follow' start names = some place)
    (hwalk : tree.walkAlong last follow here path = some place) :
    larger.walkAlong last follow' here path = some place := by
  induction path generalizing here with
  | nil => exact hwalk
  | cons name rest ih =>
      rw [walkAlong_cons] at hwalk ⊢
      have hfound : tree.stride last here name rest ≠ .lost := by
        intro hlost
        simp [hlost] at hwalk
      rw [stride_within h hfound]
      cases hstride : tree.stride last here name rest with
      | lost => exact absurd hstride hfound
      | on there =>
          rw [hstride] at hwalk
          exact ih hwalk
      | ends =>
          rw [hstride] at hwalk
          exact hwalk
      | leap start names =>
          rw [hstride] at hwalk
          exact hfollow start names hwalk

theorem walk_mono {larger : FileTree} (h : Within tree larger) {last : Bool} {links : Nat}
    (hwalk : tree.walk last links here path = some place) :
    larger.walk last links here path = some place := by
  induction links generalizing here path with
  | zero => exact walkAlong_mono h (by simp) hwalk
  | succ links ih => exact walkAlong_mono h (fun _ _ => ih) hwalk

/-- **A look-up that succeeds is not disturbed by further entries.** -/
theorem locate_mono {larger : FileTree} (h : Within tree larger) {directory : Place} {last : Bool}
    {path : List Char} (hpath : tree.locate directory last path = some place) :
    larger.locate directory last path = some place := by
  unfold locate at hpath ⊢
  split at hpath
  · next husable =>
      rw [if_pos husable]
      exact walk_mono h hpath
  · cases hpath

/-- A walk that leads somewhere also names an entry: the one it leads to, or a link. -/
theorem walkAlong_named {follow follow' : Place → List (List Char) → Option Place}
    (hfollow : ∀ start names, follow start names = some place →
      ∃ named, follow' start names = some named ∧
        (named = place ∨ ∃ target, tree.entryAt named = some (.link target)))
    (hwalk : tree.walkAlong true follow here path = some place) :
    ∃ named, tree.walkAlong false follow' here path = some named ∧
      (named = place ∨ ∃ target, tree.entryAt named = some (.link target)) := by
  induction path generalizing here with
  | nil => exact ⟨here, rfl, .inl (Option.some.inj hwalk)⟩
  | cons name rest ih =>
      rw [walkAlong_cons] at hwalk ⊢
      rcases tree.stride_named here name rest with hsame | ⟨hends, target, hlink⟩
      · rw [hsame]
        cases hstride : tree.stride true here name rest with
        | lost =>
            rw [hstride] at hwalk
            cases hwalk
        | on there =>
            rw [hstride] at hwalk
            exact ih hwalk
        | ends reached =>
            rw [hstride] at hwalk
            exact ⟨reached, rfl, .inl (Option.some.inj hwalk)⟩
        | leap start names =>
            rw [hstride] at hwalk
            exact hfollow start names hwalk
      · rw [hends]
        exact ⟨here ++ [name], rfl, .inr ⟨target, hlink⟩⟩

theorem walk_named {links : Nat} (hwalk : tree.walk true links here path = some place) :
    ∃ named, tree.walk false links here path = some named ∧
      (named = place ∨ ∃ target, tree.entryAt named = some (.link target)) := by
  induction links generalizing here path with
  | zero => exact walkAlong_named (by simp) hwalk
  | succ links ih => exact walkAlong_named (fun _ _ => ih) hwalk

/-- The entry that a walk names is on the way to what it leads to. -/
theorem mem_wayAlong {follow : Place → List (List Char) → Option Place}
    {further : Place → List (List Char) → List Place}
    (hfollow : ∀ start names, follow start names = some place → place ∈ further start names)
    (hwalk : tree.walkAlong false follow here path = some place) :
    place ∈ tree.wayAlong further here path := by
  induction path generalizing here with
  | nil => exact List.mem_singleton.2 (Option.some.inj hwalk).symm
  | cons name rest ih =>
      rw [walkAlong_cons] at hwalk
      rw [wayAlong, List.mem_append]
      cases hstride : tree.stride false here name rest with
      | ends reached =>
          rw [hstride] at hwalk
          obtain rfl := Option.some.inj hwalk
          exact .inl (mem_glance_of_stride hstride)
      | lost =>
          rw [hstride] at hwalk
          cases hwalk
      | on there =>
          rcases tree.stride_named here name rest with hsame | ⟨hends, -⟩
          · rw [hstride] at hwalk
            rw [← hsame, hstride]
            exact .inr (ih hwalk)
          · -- The walk goes on, so the name is not the last link.
            cases hstride.symm.trans hends
      | leap start names =>
          rcases tree.stride_named here name rest with hsame | ⟨hends, -⟩
          · rw [hstride] at hwalk
            rw [← hsame, hstride]
            exact .inr (hfollow start names hwalk)
          · cases hstride.symm.trans hends

theorem mem_wayWithin {links : Nat} (hwalk : tree.walk false links here path = some place) :
    place ∈ tree.wayWithin links here path := by
  induction links generalizing here path with
  | zero => exact mem_wayAlong (by simp) hwalk
  | succ links ih => exact mem_wayAlong (fun _ _ => ih) hwalk

end

section

variable {tree : FileTree} {directory : Place} {path : String}

/-- **A path that leads to a file names an entry**, which is not the root and on the way
to the file. -/
theorem named_of_isFile (h : tree.isFile directory path = true) :
    ∃ named, tree.locate directory false path.toList = some named ∧ named ≠ [] ∧
      named ∈ tree.way directory path := by
  unfold isFile find? locate at h
  unfold locate way
  split at h
  · next text size hfind =>
      split at hfind
      · next husable =>
          obtain ⟨place, hwalk, hfile⟩ := Option.bind_eq_some_iff.1 hfind
          obtain ⟨named, hnamed, hentry⟩ := walk_named hwalk
          rw [if_pos husable, if_pos husable]
          refine ⟨named, hnamed, ?_, mem_wayWithin hnamed⟩
          rintro rfl
          rcases hentry with rfl | ⟨target, hlink⟩
          · cases hfile
          · cases hlink
      · cases hfind
  · cases h

theorem isFile_remove {place : Place} (hplace : place ≠ []) :
    (tree.remove place).isFile directory path = true ↔
      tree.isFile directory path = true ∧ place ∉ tree.way directory path := by
  unfold isFile
  rw [find?_remove tree directory hplace]
  split_ifs with hway
  · simp [hway]
  · simp [hway]

end

end Montage.FileTree
