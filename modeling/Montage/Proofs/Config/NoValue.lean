import Montage.Config.Settings
import Montage.Proofs.Yaml.Keys

/-!
# Settings without a value

A setting can be there without a value.  The tools, the time limit and the wish for silence are
then as if it were not there.  A directory is not: only for a setting that is missing the default
stands, and no value is shown as the name of a directory.  So leaving out what has no value
changes nothing but the names of such directories (`load_without_values`).
-/

namespace Montage

/-- Whether a value is there. -/
def Value.isGiven : Value → Bool
  | null => false
  | _ => true

namespace Config

/-- The settings that have a value. -/
def given (settings : Settings) : Settings := settings.filter fun entry => entry.2.isGiven

/-- A setting is there without a value, and the environment does not know better. -/
def Void (host : Host) (settings : Settings) (key name : String) : Prop :=
  setting? settings key = some .null ∧ host.env.lookup name = none

/-- The configuration with other directories. -/
def withDirectories (c : Config) (uploads output : String) : Config :=
  { c with searchDirs := [uploads, output], outputDir := output }

/-- Hosts on which the same settings make the same configuration. -/
structure SetUpAlike (host host' : Host) : Prop where
  env : host.env = host'.env
  ownHome : host.ownHome = host'.ownHome
  users : host.users = host'.users
  programs : host.programs = host'.programs
  directory : host.directory = host'.directory
  isFile : ∀ path, host.isFile path = host'.isFile path

/-- The keys of the settings in a file differ. -/
theorem readSettings_keysDiffer {host : Host} {path : Option String} {settings : Settings}
    (h : readSettings host path = .ok settings) : Value.KeysDiffer settings := by
  cases path with
  | none =>
      cases h
      exact List.Pairwise.nil
  | some path =>
      obtain ⟨document, hread, hdocument⟩ := Ends.of_bind_ok h
      have hkeys := Yaml.readFile_wellKeyed host path .configTooLarge
      rw [hread] at hkeys
      unfold settingsOf at hdocument
      split at hdocument
      · cases hdocument
        exact List.Pairwise.nil
      · cases hdocument
        exact hkeys _ rfl
      · cases hdocument

/-! ## The word of the environment -/

/-- The settings after the environment has had its word on one key. -/
def overrideOne (env : List (String × String)) (settings : Settings) (known : String × String) :
    Settings :=
  match env.lookup known.2 with
  | none => settings
  | some text => Value.put settings (.text known.1) (.text text)

section

variable {env : List (String × String)} {settings : Settings} {key name : String}

theorem setting?_overrideOne_self :
    setting? (overrideOne env settings (key, name)) key =
      ((env.lookup name).map Value.text).or (setting? settings key) := by
  unfold overrideOne
  split
  · next hnone => rw [hnone, Option.map_none, Option.none_or]
  · next text hsome =>
      rw [hsome, Option.map_some, Option.some_or]
      exact Request.lookup?_withField_self

theorem setting?_overrideOne_of_ne {known : String × String} (h : key ≠ known.1) :
    setting? (overrideOne env settings known) key = setting? settings key := by
  unfold overrideOne
  split
  · rfl
  · exact Request.lookup?_withField_of_ne h

theorem setting?_foldl_of_not_mem {known : List (String × String)}
    (h : key ∉ known.map Prod.fst) :
    setting? (known.foldl (overrideOne env) settings) key = setting? settings key := by
  induction known generalizing settings with
  | nil => rfl
  | cons first rest ih =>
      rw [List.map_cons, List.mem_cons, not_or] at h
      exact (ih h.2).trans (setting?_overrideOne_of_ne h.1)

theorem setting?_foldl {known : List (String × String)} (hnodup : (known.map Prod.fst).Nodup)
    (h : (key, name) ∈ known) :
    setting? (known.foldl (overrideOne env) settings) key =
      ((env.lookup name).map Value.text).or (setting? settings key) := by
  induction known generalizing settings with
  | nil => cases h
  | cons first rest ih =>
      obtain ⟨hfirst, hrest⟩ := List.nodup_cons.1 hnodup
      rcases List.mem_cons.1 h with rfl | h
      · exact (setting?_foldl_of_not_mem hfirst).trans setting?_overrideOne_self
      · -- The first key is another one, so that what it sets does not matter here.
        have hne : key ≠ first.1 := by
          rintro rfl
          exact hfirst (List.mem_map.2 ⟨_, h, rfl⟩)
        rw [List.foldl_cons, ih hrest h, setting?_overrideOne_of_ne hne]

/-- The environment has the last word on a setting. -/
theorem setting?_override (h : (key, name) ∈ keys) :
    setting? (override env settings) key =
      ((env.lookup name).map Value.text).or (setting? settings key) :=
  setting?_foldl (by decide) h

/-- Leaving out what has no value and the word of the environment do not disturb each other. -/
theorem setting?_override_given (hkeys : Value.KeysDiffer settings) (h : (key, name) ∈ keys) :
    setting? (override env (given settings)) key =
      (setting? (override env settings) key).filter Value.isGiven := by
  have hgiven : setting? (given settings) key = (setting? settings key).filter Value.isGiven :=
    Value.lookup?_filter hkeys Value.isGiven key
  rw [setting?_override h, setting?_override h, hgiven]
  cases env.lookup name with
  | none => rfl
  | some text => rfl

/-- A setting without a value counts as one that is not there. -/
theorem setting_override_given (hkeys : Value.KeysDiffer settings) (h : (key, name) ∈ keys) :
    setting (override env (given settings)) key = setting (override env settings) key := by
  unfold setting
  rw [setting?_override_given hkeys h]
  cases setting? (override env settings) key with
  | none => rfl
  | some v => cases v <;> rfl

theorem void_iff {host : Host} (h : (key, name) ∈ keys) :
    Void host settings key name ↔ setting? (override host.env settings) key = some .null := by
  rw [Void, setting?_override h]
  cases host.env.lookup name with
  | none => simp
  | some text => simp

end

/-! ## The configuration apart from its directories -/

/-- A configuration with the tools, the time limit and the wish for silence that are set. -/
def machinery (host : Host) (settings : Settings) : Except Failure Config := do
  let engine ← tool host "ffmpeg" (setting settings "ffmpeg")
  let prober ← tool host "ffprobe" (setting settings "ffprobe")
  let timeout ← limit (setting settings "timeout")
  let quiet ← silence (setting settings "quiet")
  return { engine, prober, timeout, quiet }

/-- Settings with known keys make the directories first and the rest after them. -/
theorem ofSettings_eq {host : Host} {settings : Settings} (h : unknownKeys settings = []) :
    ofSettings host settings = do
      let uploads ← directory (override host.env settings) "upload_dir" "uploads"
      let output ← directory (override host.env settings) "output_dir" "public/processed"
      let rest ← machinery host (override host.env settings)
      return rest.withDirectories uploads output := by
  have hcheck : checkKeys settings = .ok () := by
    rw [checkKeys, h]
    rfl
  rw [ofSettings, Ends.ok_bind hcheck]
  simp only [machinery, bind_assoc, pure_bind]
  rfl

/-- No known key becomes unknown by leaving out others. -/
theorem unknownKeys_given {settings : Settings} (h : unknownKeys settings = []) :
    unknownKeys (given settings) = [] := by
  rw [unknownKeys, List.filter_eq_nil_iff] at h ⊢
  intro key hkey
  obtain ⟨entry, hentry, rfl⟩ := List.mem_map.1 hkey
  exact h _ (List.mem_map_of_mem (List.mem_filter.1 hentry).1)

theorem machinery_given {host : Host} {settings : Settings} (hkeys : Value.KeysDiffer settings) :
    machinery host (override host.env (given settings)) =
      machinery host (override host.env settings) := by
  have hsame {key name : String} (h : (key, name) ∈ keys) :
      setting (override host.env (given settings)) key =
        setting (override host.env settings) key := setting_override_given hkeys h
  unfold machinery
  rw [hsame (by decide : ("ffmpeg", "EDITPLAN_FFMPEG") ∈ keys),
    hsame (by decide : ("ffprobe", "EDITPLAN_FFPROBE") ∈ keys),
    hsame (by decide : ("timeout", "EDITPLAN_TIMEOUT") ∈ keys),
    hsame (by decide : ("quiet", "EDITPLAN_QUIET") ∈ keys)]

/-- A directory is the same without the settings that have no value, or cannot be shown with and
without them, unless it has no value itself. -/
theorem directory_given (host : Host) {settings : Settings} {key name default : String}
    (hkeys : Value.KeysDiffer settings) (h : (key, name) ∈ keys) (hdefault : default ≠ "None") :
    (∃ failure, directory (override host.env settings) key default = .error failure ∧
      directory (override host.env (given settings)) key default = .error failure) ∨
    ∃ shown shown', directory (override host.env settings) key default = .ok shown ∧
      directory (override host.env (given settings)) key default = .ok shown' ∧
      (shown = shown' ↔ ¬ Void host settings key name) := by
  rw [void_iff h]
  unfold directory
  rw [setting?_override_given hkeys h]
  cases hsetting : setting? (override host.env settings) key with
  | none => exact .inr ⟨default, default, rfl, rfl, by simp⟩
  | some v =>
      by_cases hnull : v = .null
      · subst hnull
        exact .inr ⟨"None", default, rfl, rfl, by simp [Ne.symm hdefault]⟩
      · have hgiven : v.isGiven = true := by
          cases v with
          | null => exact absurd rfl hnull
          | bool | number | text | bytes | date | moment | list | pair | map | set => rfl
        rw [Option.filter_some, if_pos hgiven]
        simp only
        cases v.plain with
        | error failure => exact .inl ⟨failure, rfl, rfl⟩
        | ok shown => exact .inr ⟨shown, shown, rfl, rfl, by simp [hnull]⟩

/-- With and without the settings that have no value, known settings fail alike, or they make
configurations that can differ in the directories only: in those that have no value. -/
theorem ofSettings_given {host : Host} {settings : Settings} (hkeys : Value.KeysDiffer settings)
    (hknown : unknownKeys settings = []) :
    (∃ failure, ofSettings host settings = .error failure ∧
      ofSettings host (given settings) = .error failure) ∨
    ∃ rest uploads uploads' output output',
      ofSettings host settings = .ok (withDirectories rest uploads output) ∧
      ofSettings host (given settings) = .ok (withDirectories rest uploads' output') ∧
      (uploads = uploads' ↔ ¬ Void host settings "upload_dir" "EDITPLAN_UPLOAD_DIR") ∧
      (output = output' ↔ ¬ Void host settings "output_dir" "EDITPLAN_OUTPUT_DIR") := by
  rw [ofSettings_eq hknown, ofSettings_eq (unknownKeys_given hknown), machinery_given hkeys]
  have huploads := directory_given host hkeys
    (by decide : ("upload_dir", "EDITPLAN_UPLOAD_DIR") ∈ keys) (by decide : "uploads" ≠ "None")
  have houtput := directory_given host hkeys
    (by decide : ("output_dir", "EDITPLAN_OUTPUT_DIR") ∈ keys)
    (by decide : "public/processed" ≠ "None")
  -- A directory that cannot be shown stops both before anything else is made.
  rcases huploads with ⟨failure, hu, hu'⟩ | ⟨uploads, uploads', hu, hu', huvoid⟩
  · exact .inl ⟨failure, Ends.error_bind hu, Ends.error_bind hu'⟩
  rw [Ends.ok_bind hu, Ends.ok_bind hu']
  rcases houtput with ⟨failure, ho, ho'⟩ | ⟨output, output', ho, ho', hovoid⟩
  · exact .inl ⟨failure, Ends.error_bind ho, Ends.error_bind ho'⟩
  rw [Ends.ok_bind ho, Ends.ok_bind ho']
  cases machinery host (override host.env settings) with
  | error failure => exact .inl ⟨failure, rfl, rfl⟩
  | ok rest => exact .inr ⟨rest, uploads, uploads', output, output', rfl, rfl, huvoid, hovoid⟩

/-- A host is looked at for its environment, its programs and its files by name only. -/
theorem SetUpAlike.ofSettings {host host' : Host} (h : SetUpAlike host host')
    (settings : Settings) : ofSettings host settings = ofSettings host' settings := by
  have hhome : host.homeOf? = host'.homeOf? := by
    funext name
    rw [Host.homeOf?, Host.homeOf?, Host.home, Host.home, h.env, h.ownHome, h.users]
  have htool : tool host = tool host' := by
    funext name v
    unfold tool
    simp only [hhome, h.programs, h.directory, h.isFile]
  unfold Config.ofSettings
  rw [htool, h.env]

/-- **Leaving out what has no value changes nothing but the names of directories without one.**
A file with known settings fails to make a configuration exactly if it fails, in the same way,
without those that have no value; and if it makes one, then both have the same tools, the same
time limit and the same wish for silence.  The outcome is the same altogether if and only if it is
a failure or no directory is void.  It does not matter which file holds the settings, as long as
the host is alike in all that they are looked up in. -/
theorem load_without_values {host : Host} {path : Option String} {settings : Settings}
    (hread : readSettings host path = .ok settings) (hknown : unknownKeys settings = []) :
    let without := ofSettings host (given settings)
    (∀ failure, load host path = .error failure ↔ without = .error failure) ∧
    (∀ c, load host path = .ok c →
      ∃ uploads output, without = .ok (withDirectories c uploads output)) ∧
    (load host path = without ↔ (∃ failure, load host path = .error failure) ∨
      (¬ Void host settings "upload_dir" "EDITPLAN_UPLOAD_DIR" ∧
        ¬ Void host settings "output_dir" "EDITPLAN_OUTPUT_DIR")) ∧
    ∀ host' path', SetUpAlike host host' → readSettings host' path' = .ok (given settings) →
      load host' path' = without := by
  intro without
  have hload : load host path = ofSettings host settings := Ends.ok_bind hread
  have hother (host' : Host) (path' : Option String) (halike : SetUpAlike host host')
      (hread' : readSettings host' path' = .ok (given settings)) : load host' path' = without :=
    (Ends.ok_bind hread').trans (halike.ofSettings _).symm
  rcases ofSettings_given (readSettings_keysDiffer hread) hknown with
    ⟨reason, hwith, hwithout⟩ |
    ⟨rest, uploads, uploads', output, output', hwith, hwithout, huploads, houtput⟩
  · rw [hload, hwith, show without = .error reason from hwithout]
    exact ⟨fun _ => Iff.rfl, nofun, ⟨fun _ => .inl ⟨reason, rfl⟩, fun _ => rfl⟩,
      fun host' path' halike hread' => (hother host' path' halike hread').trans hwithout⟩
  · rw [hload, hwith, show without = _ from hwithout]
    refine ⟨fun _ => ⟨nofun, nofun⟩, ?others, ?same,
      fun host' path' halike hread' => (hother host' path' halike hread').trans hwithout⟩
    case others =>
      rintro c ⟨⟩
      exact ⟨uploads', output', rfl⟩
    case same =>
      have hdirectories : withDirectories rest uploads output =
          withDirectories rest uploads' output' ↔ uploads = uploads' ∧ output = output' := by
        simp [withDirectories]
      rw [← huploads, ← houtput, ← hdirectories]
      exact ⟨fun h => .inr (Except.ok.inj h), fun h => congrArg _ (h.resolve_left nofun)⟩

/-- A host with a configuration that names its uploads by no value. -/
def voidHost : Host :=
  { files := ⟨[(["work".toList], .directory),
      (["work".toList, "c.yaml".toList], .file "upload_dir: null\n" 17)]⟩ }

/-- The file of that host holds one setting. -/
theorem readSettings_voidHost :
    readSettings voidHost (some "c.yaml") = .ok [(.text "upload_dir", .null)] := by
  have hview : (readSettings voidHost (some "c.yaml")).toOption.map
      (fun settings => settings.map fun entry => (entry.1.text?, entry.2.isGiven)) =
        some [(some "upload_dir", false)] := by decide +kernel
  cases hread : readSettings voidHost (some "c.yaml") with
  | error failure =>
      rw [hread] at hview
      cases hview
  | ok settings =>
      rw [hread] at hview
      obtain ⟨⟨key, v⟩, rfl, hentry⟩ := List.map_eq_singleton_iff.1 (Option.some.inj hview)
      obtain ⟨hkey, hv⟩ := Prod.mk.inj hentry
      have hkey' : key = .text "upload_dir" := by
        cases key <;> cases hkey
        rfl
      have hv' : v = .null := by
        cases v <;> cases hv
        rfl
      rw [hkey', hv']

/-- No value is taken for the name of the directory of uploads. -/
theorem load_without_values_void :
    readSettings voidHost (some "c.yaml") = .ok [(.text "upload_dir", .null)] ∧
      unknownKeys [(.text "upload_dir", .null)] = [] ∧
      load voidHost (some "c.yaml") ≠
        ofSettings voidHost (given [(.text "upload_dir", .null)]) := by
  have hknown : unknownKeys [(.text "upload_dir", .null)] = [] := by rfl
  refine ⟨readSettings_voidHost, hknown, fun hsame => ?_⟩
  have hloaded : (load voidHost (some "c.yaml")).toBool = true := by decide +kernel
  rcases (load_without_values readSettings_voidHost hknown).2.2.1.1 hsame with
    ⟨failure, hfails⟩ | ⟨huploads, -⟩
  · rw [hfails] at hloaded
    cases hloaded
  · exact huploads ⟨rfl, rfl⟩

end Config

end Montage
