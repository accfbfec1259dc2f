import Montage.Resolver
import Montage.Proofs.Files.Real
import Montage.Proofs.Request.Fields

/-!
# Where names lead

A name of a request leads to a file that exists and lies inside the directory in which
it was found, and no directory looked at before holds the name or is left by it
(`stands_of_resolve`).  The search fails otherwise, and where every directory can be
compared it fails for these two reasons only (`search_fails_iff`).  It crashes at a
directory that is reached and cannot be resolved (`crashes_resolve`).
-/

namespace Montage.Resolver

/-- A path is the directory or lies under it, name by name, once all links are
resolved. -/
def Inside (host : Host) (directory path : String) : Prop :=
  ∃ root target, host.realPath directory = .ok root ∧ host.realPath path = .ok target ∧
    Path.names root <+: Path.names target

/-- The search goes on behind a directory: the name stays inside and is not found. -/
def PassedBy (host : Host) (name directory : String) : Prop :=
  isInside host directory (Path.join directory name) = .ok true ∧
    host.isFile (Path.join directory name) = false

/-- The first directory with the name, and no way out of any directory up to it. -/
structure FoundIn (host : Host) (name : String) (before : List String) (directory : String) :
    Prop where
  isFile : host.isFile (Path.join directory name) = true
  first : ∀ d ∈ before, host.isFile (Path.join d name) = false
  inside : ∀ d ∈ before ++ [directory], Inside host d (Path.join d name)

/-- A clip is the one that a name stands for: an absolute name is the file itself, a
relative one is found in one of the directories. -/
structure Stands (host : Host) (directories : List String) (name : String) (clip : Clip) :
    Prop where
  sameName : clip.name = name
  isFile : host.isFile clip.path = true
  place : (Path.isAbsolute name.toList = true ∧ clip.path = name) ∨
    (Path.isAbsolute name.toList = false ∧ ∃ before directory after,
      directories = before ++ directory :: after ∧ clip.path = Path.join directory name ∧
        FoundIn host name before directory)

/-- What the text of the common path says of the names. -/
theorem inside_of_isInside {host : Host} {directory path : String}
    (h : isInside host directory path = .ok true) : Inside host directory path := by
  unfold isInside at h
  split at h
  · next root target hroot htarget =>
      have hcommon : Path.common root target = root := by
        simpa [pure, Except.pure] using h
      exact ⟨root, target, hroot, htarget, Path.prefix_of_common_eq hcommon⟩
  · cases h
  · cases h

/-- One step of the search. -/
theorem search_cons (host : Host) (name directory : String) (rest : List String) :
    search host name (directory :: rest) =
      match isInside host directory (Path.join directory name) with
      | .error failure => .error failure
      | .ok false => .error (.resolution name (.escapes directory))
      | .ok true =>
        if host.isFile (Path.join directory name) then .ok ⟨name, Path.join directory name⟩
        else search host name rest := by
  rw [search]
  cases isInside host directory (Path.join directory name) with
  | error failure => rfl
  | ok inside =>
      cases inside with
      | false => rfl
      | true =>
          cases host.isFile (Path.join directory name) <;> rfl

/-- How a search stops. -/
inductive Stops (host : Host) (name : String) (directories : List String) :
    Except Failure Clip → Prop
  /-- All directories are passed by. -/
  | notFound (hpassed : ∀ d ∈ directories, PassedBy host name d) :
    Stops host name directories (.error (.resolution name .notFound))
  | found (before : List String) (directory : String) (after : List String)
    (heq : directories = before ++ directory :: after)
    (hpassed : ∀ d ∈ before, PassedBy host name d)
    (hinside : isInside host directory (Path.join directory name) = .ok true)
    (hfile : host.isFile (Path.join directory name) = true) :
    Stops host name directories (.ok ⟨name, Path.join directory name⟩)
  | escapes (before : List String) (directory : String) (after : List String)
    (heq : directories = before ++ directory :: after)
    (hpassed : ∀ d ∈ before, PassedBy host name d)
    (houtside : isInside host directory (Path.join directory name) = .ok false) :
    Stops host name directories (.error (.resolution name (.escapes directory)))
  /-- A directory or the name in it has no real path. -/
  | unresolved (before : List String) (directory : String) (after : List String) (fault : Fault)
    (heq : directories = before ++ directory :: after)
    (hpassed : ∀ d ∈ before, PassedBy host name d)
    (hfault : isInside host directory (Path.join directory name) = .error (.fault fault)) :
    Stops host name directories (.error (.fault fault))

theorem Stops.cons {host : Host} {name directory : String} {rest : List String}
    {result : Except Failure Clip} (hpassed : PassedBy host name directory)
    (h : Stops host name rest result) : Stops host name (directory :: rest) result := by
  have hall {before : List String} (hbefore : ∀ d ∈ before, PassedBy host name d) :
      ∀ d ∈ directory :: before, PassedBy host name d := by
    simpa using ⟨hpassed, hbefore⟩
  cases h with
  | notFound hrest => exact .notFound (hall hrest)
  | found before d after heq hbefore hinside hfile =>
      exact .found (directory :: before) d after (by simp [heq]) (hall hbefore) hinside hfile
  | escapes before d after heq hbefore houtside =>
      exact .escapes (directory :: before) d after (by simp [heq]) (hall hbefore) houtside
  | unresolved before d after fault heq hbefore hfault =>
      exact .unresolved (directory :: before) d after fault (by simp [heq]) (hall hbefore) hfault

/-- Whether a path is inside a directory is known unless one of the two has no real
path. -/
theorem isInside_eq_error {host : Host} {directory path : String} {failure : Failure}
    (h : isInside host directory path = .error failure) : ∃ fault, failure = .fault fault := by
  unfold isInside at h
  split at h
  · cases h
  · exact ⟨_, (Except.error.inj h).symm⟩
  · exact ⟨_, (Except.error.inj h).symm⟩

/-- Every search stops in one of these ways. -/
theorem search_stops (host : Host) (name : String) (directories : List String) :
    Stops host name directories (search host name directories) := by
  induction directories with
  | nil => exact .notFound (by simp)
  | cons directory rest ih =>
      rw [search_cons]
      cases hinside : isInside host directory (Path.join directory name) with
      | error failure =>
          obtain ⟨fault, rfl⟩ := isInside_eq_error hinside
          exact .unresolved [] directory rest fault rfl (by simp) hinside
      | ok inside =>
          cases inside with
          | false => exact .escapes [] directory rest rfl (by simp) hinside
          | true =>
              cases hfile : host.isFile (Path.join directory name) with
              | true => exact .found [] directory rest rfl (by simp) hinside hfile
              | false => exact ih.cons ⟨hinside, hfile⟩

/-- A clip that the search finds stands for its name. -/
theorem stands_of_search {host : Host} {name : String} {directories : List String} {clip : Clip}
    (hrelative : Path.isAbsolute name.toList = false)
    (h : search host name directories = .ok clip) : Stands host directories name clip := by
  have hstops := search_stops host name directories
  rw [h] at hstops
  cases hstops with
  | found before directory after heq hpassed hinside hfile =>
      refine ⟨rfl, hfile, .inr ⟨hrelative, before, directory, after, heq, rfl, hfile, ?_, ?_⟩⟩
      · exact fun d hd => (hpassed d hd).2
      · intro d hd
        rcases List.mem_append.1 hd with hd | hd
        · exact inside_of_isInside (hpassed d hd).1
        · obtain rfl := List.mem_singleton.1 hd
          exact inside_of_isInside hinside

/-- **A resolved clip stands for the name.**  Only texts are resolved. -/
theorem stands_of_resolve {host : Host} {directories : List String} {v : Value} {clip : Clip}
    (h : resolve host directories v = .ok clip) :
    ∃ name, v = .text name ∧ Stands host directories name clip := by
  unfold resolve at h
  split at h
  · next name =>
      refine ⟨name, rfl, ?_⟩
      unfold resolveName at h
      split at h
      · cases h
      · cases habsolute : Path.isAbsolute name.toList with
        | true =>
            rw [habsolute] at h
            split at h
            · split at h
              · next hfile =>
                  cases h
                  exact ⟨rfl, hfile, .inl ⟨habsolute, rfl⟩⟩
              · cases h
            · next hnot => exact absurd rfl hnot
        | false =>
            rw [habsolute] at h
            exact stands_of_search habsolute h
  · cases hplain : v.plain with
    | error failure =>
        rw [hplain] at h
        cases h
    | ok shown =>
        rw [hplain] at h
        cases h

/-- A name on which the search crashes: the first directory that is not passed by has no
real path, or the name in it has none. -/
def BreaksSearch (host : Host) (directories : List String) (name : String) : Prop :=
  ∃ before directory after, directories = before ++ directory :: after ∧
    (∀ d ∈ before, PassedBy host name d) ∧
    ∃ fault, host.realPath directory = .error fault ∨
      host.realPath (Path.join directory name) = .error fault

/-- A value that crashes the resolver: a relative name on which the search crashes, or a
value that is no text and cannot be shown. -/
def BreaksClip (host : Host) (directories : List String) : Value → Prop
  | .text name =>
    Text.isBlankText name = false ∧ Path.isAbsolute name.toList = false ∧
      BreaksSearch host directories name
  | v => v.isUnshowable = true

theorem isInside_fails_iff {host : Host} {directory path : String} :
    (∃ fault, isInside host directory path = .error (.fault fault)) ↔
      ∃ fault, host.realPath directory = .error fault ∨ host.realPath path = .error fault := by
  -- The directory is resolved before the path is.
  unfold isInside
  cases hroot : host.realPath directory with
  | error fault => exact ⟨fun _ => ⟨fault, .inl rfl⟩, fun _ => ⟨fault, rfl⟩⟩
  | ok root =>
      cases htarget : host.realPath path with
      | error fault => exact ⟨fun _ => ⟨fault, .inr rfl⟩, fun _ => ⟨fault, rfl⟩⟩
      | ok target =>
          refine ⟨fun ⟨_, h⟩ => (nomatch h), ?_⟩
          rintro ⟨fault, h | h⟩
          · cases h
          · cases h

/-- A search goes on behind the directories that it passes by. -/
theorem search_append {host : Host} {name : String} {before : List String} (after : List String)
    (hpassed : ∀ d ∈ before, PassedBy host name d) :
    search host name (before ++ after) = search host name after := by
  induction before with
  | nil => rfl
  | cons directory rest ih =>
      obtain ⟨hinside, hfile⟩ := hpassed directory (by simp)
      rw [List.cons_append, search_cons, hinside]
      simp only [hfile, Bool.false_eq_true, if_false]
      exact ih fun d hd => hpassed d (List.mem_cons_of_mem _ hd)

theorem crashes_search {host : Host} {directories : List String} {name : String} :
    Crashes (search host name directories) ↔ BreaksSearch host directories name := by
  constructor
  · rintro ⟨failure, hresult, hcrash⟩
    have hstops := search_stops host name directories
    rw [hresult] at hstops
    cases hstops with
    | notFound | escapes => cases hcrash
    | unresolved before directory after fault heq hpassed hfault =>
        exact ⟨before, directory, after, heq, hpassed, isInside_fails_iff.1 ⟨fault, hfault⟩⟩
  · rintro ⟨before, directory, after, rfl, hpassed, hfails⟩
    obtain ⟨fault, hfault⟩ := isInside_fails_iff.2 hfails
    rw [search_append _ hpassed, search_cons, hfault]
    exact crashes_fault fault

/-- **When the resolver crashes.**  An absolute name never does, a blank one neither. -/
theorem crashes_resolve {host : Host} {directories : List String} {v : Value} :
    Crashes (resolve host directories v) ↔ BreaksClip host directories v := by
  have hshown (v : Value) : Crashes (do throw (.resolution (← v.plain) .blank) :
      Except Failure Clip) ↔ v.isUnshowable = true := by
    rw [← Value.crashes_plain]
    exact crashes_bind_of_not fun _ _ => not_crashes_resolution _ _
  cases v with
  | text name =>
      unfold resolve resolveName
      simp only [BreaksClip]
      cases hblank : Text.isBlankText name with
      | true => exact ⟨fun h => absurd h (not_crashes_resolution _ _), fun h => nomatch h.1⟩
      | false =>
          cases habsolute : Path.isAbsolute name.toList with
          | true =>
              refine ⟨fun h => ?_, fun h => nomatch h.2.1⟩
              simp only [Bool.false_eq_true, if_false, if_true] at h
              split at h
              · exact absurd h (not_crashes_ok _)
              · exact absurd h (not_crashes_resolution _ _)
          | false =>
              simp only [Bool.false_eq_true, if_false, true_and]
              exact crashes_search
  | null | bool | number | bytes | date | moment | list | pair | map | set => exact hshown _

/-- Directories that can be compared with what lies in them: the system takes their paths and
the targets of all links, and the real path of none begins with two separators. -/
structure Comparable (host : Host) (directories : List String) : Prop where
  links : host.files.CleanLinks
  clean : ∀ d ∈ directories, FileTree.Clean d.toList
  single : ∀ d ∈ directories, ∀ rest, host.realPath d ≠ .ok ('/' :: '/' :: rest)

/-- In such a directory the comparison of the paths is the one of their names. -/
theorem Comparable.isInside_eq {host : Host} {directories : List String}
    (h : Comparable host directories) {directory name : String}
    (hdirectory : directory ∈ directories) (hname : FileTree.Clean name.toList) :
    ∃ inside, isInside host directory (Path.join directory name) = .ok inside ∧
      (inside = true ↔ Inside host directory (Path.join directory name)) := by
  have hpath : FileTree.Clean (Path.join directory name).toList := by
    simpa [Path.join] using FileTree.clean_joinChars (h.clean directory hdirectory) hname
  obtain ⟨root, hroot⟩ :=
    FileTree.realPath_eq_ok h.links host.directory (h.clean directory hdirectory)
  obtain ⟨target, htarget⟩ := FileTree.realPath_eq_ok h.links host.directory hpath
  have hplain : root = Path.ofNames (Path.names root) := by
    refine FileTree.eq_ofNames_of_realPath hroot fun rest hdouble => ?_
    exact h.single directory hdirectory rest (hdouble ▸ hroot)
  have hinside : Inside host directory (Path.join directory name) ↔
      Path.names root <+: Path.names target := by
    constructor
    · rintro ⟨root', target', hroot', htarget', hprefix⟩
      cases hroot.symm.trans hroot'
      cases htarget.symm.trans htarget'
      exact hprefix
    · exact fun hprefix => ⟨root, target, hroot, htarget, hprefix⟩
  refine ⟨Path.common root target == root, ?_, ?_⟩
  · unfold isInside
    rw [Host.realPath, hroot, Host.realPath, htarget]
    rfl
  · rw [beq_iff_eq, Path.common_eq_iff hplain, hinside]

/-- Two places in one list: one comes first, or they are the same. -/
theorem split_cases {before after before' after' : List String} {d d' : String}
    (h : before ++ d :: after = before' ++ d' :: after') : d' ∈ before ∨ d = d' ∨ d ∈ before' := by
  rcases List.append_eq_append_iff.1 h with ⟨between, rfl, htail⟩ | ⟨between, rfl, htail⟩
  · cases between with
    | nil => exact .inr (.inl (List.cons.inj htail).1)
    | cons first others =>
        obtain ⟨rfl, -⟩ := List.cons.inj htail
        exact .inr (.inr (by simp))
  · cases between with
    | nil => exact .inr (.inl (List.cons.inj htail).1.symm)
    | cons first others =>
        obtain ⟨rfl, -⟩ := List.cons.inj htail
        exact .inl (by simp)

/-- A name is lost in directories: none holds it, or it leaves one before which none
holds it. -/
def Lost (host : Host) (directories : List String) (name : String) : Prop :=
  (∀ d ∈ directories, host.isFile (Path.join d name) = false) ∨
    ∃ before directory after, directories = before ++ directory :: after ∧
      (∀ d ∈ before, host.isFile (Path.join d name) = false) ∧
      ¬ Inside host directory (Path.join directory name)

/-- **When a search fails.**  In directories that can be compared, exactly the lost names
are refused. -/
theorem search_fails_iff {host : Host} {directories : List String} (h : Comparable host directories)
    {name : String} (hname : FileTree.Clean name.toList) :
    (∃ cause, search host name directories = .error (.resolution name cause)) ↔
      Lost host directories name := by
  have hstops := search_stops host name directories
  have hcompared {before after : List String} {d : String}
      (heq : directories = before ++ d :: after) :=
    h.isInside_eq (show d ∈ directories by simp [heq]) hname
  generalize search host name directories = result at hstops
  cases hstops with
  | notFound hpassed =>
      exact ⟨fun _ => .inl fun d hd => (hpassed d hd).2, fun _ => ⟨_, rfl⟩⟩
  | escapes before directory after heq hpassed houtside =>
      obtain ⟨inside, hresult, hinside⟩ := hcompared heq
      have hnot : ¬ Inside host directory (Path.join directory name) := by
        rw [← hinside]
        cases hresult.symm.trans houtside
        simp
      exact ⟨fun _ => .inr ⟨before, directory, after, heq, fun d hd => (hpassed d hd).2, hnot⟩,
        fun _ => ⟨_, rfl⟩⟩
  | found before directory after heq hpassed hinside hfile =>
      refine ⟨fun ⟨_, hfails⟩ => (nomatch hfails), ?_⟩
      rintro (hnone | ⟨before', directory', after', heq', hnone, hnot⟩)
      · rw [hnone directory (by simp [heq])] at hfile
        cases hfile
      · -- The directory that is left comes before the one that holds the name, or is it.
        rcases split_cases (heq ▸ heq') with hbefore | rfl | hbefore
        · exact absurd (inside_of_isInside (hpassed directory' hbefore).1) hnot
        · exact absurd (inside_of_isInside hinside) hnot
        · rw [hnone directory hbefore] at hfile
          cases hfile
  | unresolved before directory after fault heq hpassed hfault =>
      obtain ⟨inside, hresult, -⟩ := hcompared heq
      cases hresult.symm.trans hfault

/-- A machine on which a link leads to itself, beside a directory with a clip. -/
def loopedHost : Host :=
  { files := ⟨[(["work".toList], .directory), (["work".toList, "loop".toList], .link "loop"),
      (["work".toList, "good".toList], .directory),
      (["work".toList, "good".toList, "a.mp4".toList], .file "" 0)]⟩ }

/-- Neither condition on the directories can be dropped.  Behind a link to itself a real
path may begin with two separators, and then a name is refused that is not lost; and a
zero character in a directory is a fault where the name is lost. -/
theorem lost_differs :
    ((∃ cause, resolve loopedHost ["loop///x", "good"] (.text "a.mp4") =
        .error (.resolution "a.mp4" cause)) ∧
      ¬ Lost loopedHost ["loop///x", "good"] "a.mp4") ∧
    (Lost loopedHost ["\x00"] "a.mp4" ∧
      ¬ ∃ cause, resolve loopedHost ["\x00"] (.text "a.mp4") =
        .error (.resolution "a.mp4" cause)) := by
  have hloop : Inside loopedHost "loop///x" (Path.join "loop///x" "a.mp4") :=
    ⟨"//x".toList, "//x/a.mp4".toList, rfl, rfl, by decide⟩
  have hgood : Inside loopedHost "good" (Path.join "good" "a.mp4") :=
    ⟨"/work/good".toList, "/work/good/a.mp4".toList, rfl, rfl, by decide⟩
  refine ⟨⟨⟨.escapes "loop///x", rfl⟩, ?_⟩, .inl (by decide +kernel), ?_⟩
  · rintro (hnone | ⟨before, directory, after, heq, -, hnot⟩)
    · have hheld : loopedHost.isFile (Path.join "good" "a.mp4") = true := by decide +kernel
      rw [hnone "good" (by simp)] at hheld
      cases hheld
    · have hmem : directory ∈ ["loop///x", "good"] := by simp [heq]
      simp only [List.mem_cons, List.not_mem_nil, or_false] at hmem
      rcases hmem with rfl | rfl
      · exact hnot hloop
      · exact hnot hgood
  · rintro ⟨cause, hresolve⟩
    have hfault : resolve loopedHost ["\x00"] (.text "a.mp4") = .error (.fault .badValue) := rfl
    cases hfault.symm.trans hresolve

end Montage.Resolver
