import Montage.Proofs.Config.NoValue
import Montage.Proofs.Media.Duration
import Montage.Proofs.Request.Refusals

/-!
# Usable configurations

What stands in a file should make a configuration that can be used, or be refused in words of the
set-up.  The making goes through steps, and of each it is known exactly on which values it crashes
(`Settles`).  Keys that are no texts cannot be named in order, a value can be too long or too deep
to be shown, a whole number can be too large for a time limit, and no user can be asked for whose
name the system does not take.  A time limit is asked only whether it is at most zero, which neither
not-a-number nor the positive infinity is.  Nothing else makes a configuration unusable
(`load_usable_iff`).
-/

namespace Montage

/-- A failure in words of the set-up. -/
def Failure.IsSetup (failure : Failure) : Prop := ∃ cause, failure = .setup cause

namespace Config

/-- A step crashes exactly if something is broken; otherwise its result is good, or what it is
given is refused in words of the set-up. -/
def Settles {α : Type} (good : α → Prop) (broken : Prop) : Except Failure α → Prop :=
  Ends (fun a => good a ∧ ¬ broken) fun failure =>
    (failure.IsSetup ∧ ¬ broken) ∨ ((∃ fault, failure = .fault fault) ∧ broken)

namespace Settles

variable {α β : Type} {good : α → Prop} {good' : β → Prop} {broken broken' : Prop}
  {x : Except Failure α} {k : α → Except Failure β}

theorem ok {a : α} (h : good a) (hfits : ¬ broken) : Settles good broken (.ok a) := ⟨h, hfits⟩

theorem refused {cause : SetupCause} (hfits : ¬ broken) :
    Settles good broken (.error (.setup cause)) := .inl ⟨⟨cause, rfl⟩, hfits⟩

theorem crashed {fault : Fault} (h : broken) : Settles good broken (.error (.fault fault)) :=
  .inr ⟨⟨fault, rfl⟩, h⟩

theorem congr (h : Settles good broken x) (hbroken : broken ↔ broken') :
    Settles good broken' x := by
  rwa [← propext hbroken]

theorem of_ok {a : α} (h : Settles good broken x) (hx : x = .ok a) : good a := by
  rw [hx] at h
  exact h.1

/-- Steps crash in the first, or in the second after the first has passed. -/
theorem bind (hx : Settles good broken x) (hk : ∀ a, x = .ok a → Settles good' broken' (k a)) :
    Settles good' (broken ∨ (∃ a, x = .ok a) ∧ broken') (x >>= k) := by
  cases x with
  | ok a =>
      exact (hk a rfl).congr
        ⟨fun h => .inr ⟨⟨a, rfl⟩, h⟩, fun h => (h.resolve_left hx.2).2⟩
  | error failure =>
      rcases hx with ⟨hsetup, hfits⟩ | ⟨hfault, hbroken⟩
      · refine .inl ⟨hsetup, ?_⟩
        rintro (hbroken | ⟨⟨a, ha⟩, -⟩)
        · exact hfits hbroken
        · cases ha
      · exact .inr ⟨hfault, .inl hbroken⟩

/-- A first step that refuses nothing only crashes or passes. -/
theorem followed (hx : Settles good broken x) (hok : ¬ broken → ∃ a, x = .ok a)
    (hk : ∀ a, x = .ok a → Settles good' broken' (k a)) :
    Settles good' (broken ∨ broken') (x >>= k) := by
  refine (hx.bind hk).congr ⟨fun h => h.imp_right And.right, fun h => ?_⟩
  by_cases hbroken : broken
  · exact .inl hbroken
  · exact h.imp_right fun h' => ⟨hok hbroken, h'⟩

/-- The last step only puts together what the steps before it have come to. -/
theorem result {f : α → β} (hx : Settles good broken x)
    (hf : ∀ a, x = .ok a → good a → good' (f a)) :
    Settles good' broken (x >>= fun a => pure (f a)) := by
  cases x with
  | ok a => exact ⟨hf a rfl hx.1, hx.2⟩
  | error failure => exact hx

/-- Nothing follows a step that never passes. -/
theorem stopped (hx : Settles good broken x) (hnever : ∀ a, ¬ good a) :
    Settles good' broken (x >>= k) := by
  cases x with
  | ok a => exact absurd hx.1 (hnever a)
  | error failure => exact hx

/-- What is broken is what a step crashes on. -/
theorem crashes_iff (h : Settles good broken x) :
    broken ↔ ∃ fault, x = .error (.fault fault) := by
  cases x with
  | ok a => exact ⟨fun hbroken => absurd hbroken h.2, nofun⟩
  | error failure =>
      rcases h with ⟨⟨cause, rfl⟩, hfits⟩ | ⟨⟨fault, rfl⟩, hbroken⟩
      · exact ⟨fun hbroken => absurd hbroken hfits, nofun⟩
      · exact ⟨fun _ => ⟨fault, rfl⟩, fun _ => hbroken⟩

/-- What is not broken is good or refused. -/
theorem ends (h : Settles good broken x) (hfits : ¬ broken) : Ends good Failure.IsSetup x :=
  Ends.mono h (fun _ => And.left) fun _ hfails =>
    hfails.elim And.left fun hcrash => absurd hcrash.2 hfits

end Settles

/-! ## The steps -/

theorem settles_shownAs (v : Value) (text : String) :
    Settles (fun _ => True) (v.isUnshowable = true) (v.shownAs text) := by
  by_cases hshow : v.isUnshowable = true
  · obtain ⟨failure, hfailed, -⟩ := Value.crashes_shownAs.2 hshow
    obtain ⟨fault, rfl⟩ := v.shownAs_fails text failure hfailed
    rw [hfailed]
    exact .crashed hshow
  · rw [Value.shownAs_of_showable hshow]
    exact .ok trivial hshow

theorem settles_plain (v : Value) : Settles (fun _ => True) (v.isUnshowable = true) v.plain :=
  settles_shownAs v _

theorem settles_quoted (v : Value) : Settles (fun _ => True) (v.isUnshowable = true) v.quoted :=
  settles_shownAs v _

/-- A value on which the search for a tool crashes: it cannot be shown, or it starts at the home
directory of a user who cannot be asked for. -/
def BreaksTool (v : Value) : Prop :=
  v.isUnshowable = true ∨ Text.isSendable (Path.userName v.plainText) = false

/-- A time limit that a value stands for. -/
def IsLimit (v : Value) (timeout : Option Number) : Prop :=
  timeout = none ∨ ∃ x, v.toFloat? = .ok (some x) ∧ ¬ x ≤ 0.0 ∧ timeout = some (.float x)

theorem settles_checkKeys (settings : Settings) :
    Settles (fun _ => unknownKeys settings = []) (∃ key ∈ unknownKeys settings, key.text? = none)
      (checkKeys settings) := by
  unfold checkKeys
  cases unknownKeys settings with
  | nil => exact .ok rfl (by simp)
  | cons first rest =>
      rw [if_neg (by simp)]
      split
      · next htexts =>
          refine .refused ?_
          rintro ⟨key, hkey, hnone⟩
          have hsome := List.all_eq_true.1 htexts key hkey
          rw [hnone] at hsome
          cases hsome
      · next htexts =>
          obtain ⟨key, hkey, hnone⟩ := List.all_eq_false.1 (eq_false_of_ne_true htexts)
          exact .crashed ⟨key, hkey, Option.not_isSome_iff_eq_none.1 hnone⟩

theorem exists_directory {settings : Settings} {key : String} (default : String)
    (h : ¬ (setting settings key).isUnshowable = true) :
    ∃ shown, directory settings key default = .ok shown := by
  unfold setting at h
  unfold directory
  cases hsetting : setting? settings key with
  | none => exact ⟨default, rfl⟩
  | some v =>
      rw [hsetting] at h
      exact ⟨v.plainText, Value.plain_of_showable h⟩

theorem settles_directory (settings : Settings) (key default : String) :
    Settles (fun _ => True) ((setting settings key).isUnshowable = true)
      (directory settings key default) := by
  unfold directory setting
  cases setting? settings key with
  | none => exact .ok trivial nofun
  | some v => exact settles_plain v

theorem settles_tool (host : Host) (name : String) (v : Value) :
    Settles (fun _ => True) (BreaksTool v) (tool host name v) := by
  unfold tool
  split
  · refine .ok trivial ?_
    rintro (hlong | hnull)
    · cases hlong
    · cases hnull
  · have hpasses (h : ¬ v.isUnshowable = true) : ∃ shown, v.plain = .ok shown :=
      ⟨_, Value.plain_of_showable h⟩
    refine (settles_plain v).followed hpasses fun shown hshown => ?_
    have hfits := Value.isUnshowable_of_plain hshown
    rw [Value.plain_of_showable (by simp [hfits])] at hshown
    cases hshown
    -- The value can be shown, so that only the name of a user in its text can still break it.
    cases hsent : Text.isSendable (Path.userName v.plainText) with
    | false => exact .crashed rfl
    | true =>
        simp only [Bool.not_true, Bool.false_eq_true, if_false]
        split
        · exact .ok trivial nofun
        · split
          · exact .ok trivial nofun
          · exact .refused nofun

theorem settles_limit (v : Value) : Settles (IsLimit v) v.BreaksNumber (limit v) := by
  unfold limit
  split
  · exact .ok (.inl rfl) (Value.not_breaksNumber_of_isBlank rfl)
  · exact .ok (.inl rfl) (Value.not_breaksNumber_of_isBlank rfl)
  · cases hread : v.toFloat? with
    | error failure =>
        have hlarge := Value.overflows_of_error hread
        rw [Value.toFloat?_of_overflows hlarge] at hread
        cases hread
        exact .crashed (.inl hlarge)
    | ok r =>
        cases r with
        | none =>
            -- What is read as none is refused, for which it has to be shown.
            refine Settles.congr ?_ (Value.breaksNumber_iff_of_toFloat? hread).symm
            exact ((settles_quoted v).bind fun _ _ => .refused not_false).congr (by simp)
        | some x =>
            have hfits := Value.not_breaksNumber_of_toFloat? hread
            change Settles _ _ (if x ≤ 0.0 then _ else _)
            split
            · exact .refused hfits
            · next hle => exact .ok (.inr ⟨x, hread, hle, rfl⟩) hfits

/-- What is read as a double that is not at most zero is a time limit. -/
theorem limit_of_not_le {v : Value} {x : Float} (hread : v.toFloat? = .ok (some x))
    (hle : ¬ x ≤ 0.0) : limit v = .ok (some (.float x)) := by
  unfold limit
  split
  · cases hread
  · cases hread
  · exact (Ends.ok_bind hread).trans (if_neg hle)

theorem exists_silence {v : Value} (h : ¬ v.isUnshowable = true) :
    ∃ quiet, silence v = .ok quiet := by
  unfold silence
  split
  · exact ⟨_, rfl⟩
  · exact ⟨_, rfl⟩
  · exact ⟨_, Ends.ok_bind (Value.plain_of_showable h)⟩

theorem settles_silence (v : Value) :
    Settles (fun _ => True) (v.isUnshowable = true) (silence v) := by
  unfold silence
  split
  · exact .ok trivial nofun
  · exact .ok trivial nofun
  · exact (settles_plain v).result fun _ _ _ => trivial

/-! ## The configuration as a whole -/

section

variable (host : Host) (settings : Settings)

/-- The program that is set for a tool is found, or none is set. -/
def Found (name : String) : Prop :=
  ∃ program, tool host name (setting settings name) = .ok program

/-- Settings on which the making of all but the directories crashes: the first broken one counts,
after those before it have passed. -/
def BreaksMachinery : Prop :=
  BreaksTool (setting settings "ffmpeg") ∨ Found host settings "ffmpeg" ∧
    (BreaksTool (setting settings "ffprobe") ∨ Found host settings "ffprobe" ∧
      ((setting settings "timeout").BreaksNumber ∨
        (∃ timeout, limit (setting settings "timeout") = .ok timeout) ∧
          (setting settings "quiet").isUnshowable = true))

/-- Settings on which the making of a configuration crashes: an unknown key is no text, or all are
known and, after the environment has had its word, a directory cannot be shown or the rest
crashes. -/
def Breaks : Prop :=
  (∃ key ∈ unknownKeys settings, key.text? = none) ∨ unknownKeys settings = [] ∧
    ((setting (override host.env settings) "upload_dir").isUnshowable = true ∨
      (setting (override host.env settings) "output_dir").isUnshowable = true ∨
      BreaksMachinery host (override host.env settings))

/-- Settings that make a configuration with a time limit that has no end. -/
def Unending : Prop :=
  unknownKeys settings = [] ∧ ¬ Breaks host settings ∧
    Found host (override host.env settings) "ffmpeg" ∧
    Found host (override host.env settings) "ffprobe" ∧
    ∃ x, (setting (override host.env settings) "timeout").toFloat? = .ok (some x) ∧
      Media.Endless x

/-- A configuration has what is set for all but the directories. -/
structure Equipped (c : Config) : Prop where
  engine : tool host "ffmpeg" (setting settings "ffmpeg") = .ok c.engine
  prober : tool host "ffprobe" (setting settings "ffprobe") = .ok c.prober
  timeout : limit (setting settings "timeout") = .ok c.timeout
  quiet : silence (setting settings "quiet") = .ok c.quiet

/-- The directories of a configuration are those that are set: that of the uploads and, after it,
that of the output. -/
def Located (c : Config) : Prop :=
  ∃ uploads, directory (override host.env settings) "upload_dir" "uploads" = .ok uploads ∧
    directory (override host.env settings) "output_dir" "public/processed" = .ok c.outputDir ∧
    c.searchDirs = [uploads, c.outputDir]

/-- A configuration has all that is set. -/
structure Made (c : Config) : Prop where
  known : unknownKeys settings = []
  located : Located host settings c
  equipped : Equipped host (override host.env settings) c

/-- A configuration can be used: its directories are those that are set, and its time limit, if it
has one, is a positive number. -/
structure IsValid (c : Config) : Prop where
  located : Located host settings c
  timeout : ∀ limit, c.timeout = some limit → ∃ q, limit.toRat? = some q ∧ 0 < q

theorem settles_machinery :
    Settles (Equipped host settings) (BreaksMachinery host settings) (machinery host settings) :=
  (settles_tool _ _ _).bind fun _ hengine => (settles_tool _ _ _).bind fun _ hprober =>
    (settles_limit _).bind fun _ htimeout => (settles_silence _).result fun _ hquiet _ =>
      ⟨hengine, hprober, htimeout, hquiet⟩

theorem settles_ofSettings :
    Settles (Made host settings) (Breaks host settings) (ofSettings host settings) := by
  by_cases hknown : unknownKeys settings = []
  · rw [ofSettings_eq hknown]
    refine ((settles_directory _ "upload_dir" _).followed (exists_directory _) fun uploads hu =>
      (settles_directory _ "output_dir" _).followed (exists_directory _) fun output ho =>
        (settles_machinery _ _).result fun rest _ hrest => ?made).congr ?broken
    case made =>
      exact ⟨hknown, ⟨uploads, hu, ho, rfl⟩, hrest.engine, hrest.prober, hrest.timeout, hrest.quiet⟩
    case broken => simp [Breaks, hknown]
  · have hbroken : (∃ key ∈ unknownKeys settings, key.text? = none) ↔ Breaks host settings := by
      simp [Breaks, hknown]
    exact ((settles_checkKeys settings).stopped fun _ => hknown).congr hbroken

variable {host settings}

/-- A configuration that is made can be used, unless its time limit has no end. -/
theorem Made.isValid {c : Config} (h : Made host settings c)
    (hends : ∀ x, c.timeout = some (.float x) → ¬ Media.Endless x) : IsValid host settings c := by
  refine ⟨h.located, fun timeout htimeout => ?_⟩
  rcases (settles_limit _).of_ok h.equipped.timeout with hnone | ⟨x, -, hle, hx⟩
  · rw [hnone] at htimeout
    cases htimeout
  · have hpos := Media.pos_of_not_le hle (hends x hx)
    rw [hx] at htimeout
    cases htimeout
    exact hpos

/-- A time limit without end is no positive number. -/
theorem IsValid.not_endless {c : Config} (h : IsValid host settings c) {x : Float}
    (hx : c.timeout = some (.float x)) : ¬ Media.Endless x := by
  intro hendless
  obtain ⟨q, hq, -⟩ := h.timeout _ hx
  have hfinite := (Decimal.isFinite_iff x).2 ⟨q, hq⟩
  rw [((Media.endless_iff x).1 hendless).1] at hfinite
  cases hfinite

/-- Settings with a time limit that has no end make a configuration. -/
theorem Unending.exists_ofSettings (h : Unending host settings) :
    ∃ c, ofSettings host settings = .ok c := by
  obtain ⟨hknown, hfits, ⟨engine, hengine⟩, ⟨prober, hprober⟩, x, hread, hendless⟩ := h
  have hlimit := limit_of_not_le hread ((Media.endless_iff x).1 hendless).2
  -- Nothing is broken, so that the steps around the time limit can only pass.
  simp only [Breaks, hknown, true_and, not_or] at hfits
  obtain ⟨-, hu, ho, hmachinery⟩ := hfits
  obtain ⟨uploads, hu⟩ := exists_directory "uploads" hu
  obtain ⟨output, ho⟩ := exists_directory "public/processed" ho
  have hquiet : ¬ (setting (override host.env settings) "quiet").isUnshowable = true := fun h =>
    hmachinery (.inr ⟨⟨engine, hengine⟩, .inr ⟨⟨prober, hprober⟩, .inr ⟨⟨_, hlimit⟩, h⟩⟩⟩)
  obtain ⟨quiet, hquiet⟩ := exists_silence hquiet
  rw [ofSettings_eq hknown, Ends.ok_bind hu, Ends.ok_bind ho, machinery, Ends.ok_bind hengine,
    Ends.ok_bind hprober, Ends.ok_bind hlimit, Ends.ok_bind hquiet]
  exact ⟨_, rfl⟩

/-- The settings that make a configuration with a time limit that has no end are known exactly. -/
theorem unending_iff :
    Unending host settings ↔
      ∃ c x, ofSettings host settings = .ok c ∧ c.timeout = some (.float x) ∧ Media.Endless x := by
  have hsettles := settles_ofSettings host settings
  constructor
  · intro h
    obtain ⟨c, hc⟩ := h.exists_ofSettings
    obtain ⟨-, -, -, -, x, hread, hendless⟩ := h
    have hlimit := limit_of_not_le hread ((Media.endless_iff x).1 hendless).2
    have hmade := (hsettles.of_ok hc).equipped.timeout
    rw [hlimit] at hmade
    exact ⟨c, x, hc, (Except.ok.inj hmade).symm, hendless⟩
  · rintro ⟨c, x, hc, htimeout, hendless⟩
    have hmade := hsettles.of_ok hc
    rw [hc] at hsettles
    refine ⟨hmade.known, hsettles.2, ⟨_, hmade.equipped.engine⟩, ⟨_, hmade.equipped.prober⟩, ?_⟩
    rcases (settles_limit _).of_ok hmade.equipped.timeout with hnone | ⟨y, hread, -, hy⟩
    · rw [hnone] at htimeout
      cases htimeout
    · rw [hy] at htimeout
      cases htimeout
      exact ⟨x, hread, hendless⟩

end

/-- What is promised of the settings in a document: they make a configuration that can be used, or
are refused in words of the set-up. -/
def Usable (host : Host) (document : Value) : Except Failure Config → Prop :=
  Ends (fun c => ∃ settings, settingsOf document = .ok settings ∧ IsValid host settings c)
    Failure.IsSetup

/-- **A file makes a configuration that can be used, or is refused in words of the set-up,** unless
it holds settings on which the making crashes, or settings with a time limit that has no end, which
is returned as it is. -/
theorem load_usable_iff {host : Host} {path : String} {document : Value}
    (hread : Yaml.readFile host path .configTooLarge = .ok document) :
    let outcome := load host (some path)
    (Usable host document outcome ↔ ∀ settings, settingsOf document = .ok settings →
      ¬ Breaks host settings ∧ ¬ Unending host settings) ∧
    ∀ settings, settingsOf document = .ok settings →
      (Breaks host settings ↔ ∃ fault, outcome = .error (.fault fault)) ∧
      (Unending host settings ↔ ∃ c x, outcome = .ok c ∧ c.timeout = some (.float x) ∧
        Media.Endless x) := by
  intro outcome
  have houtcome : outcome = settingsOf document >>= ofSettings host := by
    change (Yaml.readFile host path .configTooLarge >>= settingsOf) >>= ofSettings host = _
    rw [Ends.ok_bind hread]
  have hcases (settings : Settings) (hsettings : settingsOf document = .ok settings) :
      (Breaks host settings ↔ ∃ fault, outcome = .error (.fault fault)) ∧
      (Unending host settings ↔ ∃ c x, outcome = .ok c ∧ c.timeout = some (.float x) ∧
        Media.Endless x) := by
    rw [houtcome, Ends.ok_bind hsettings]
    exact ⟨(settles_ofSettings host settings).crashes_iff, unending_iff⟩
  refine ⟨⟨fun husable settings hsettings => ⟨fun hbreaks => ?_, fun hunending => ?_⟩, fun h => ?_⟩,
    hcases⟩
  · -- A crash is no refusal.
    obtain ⟨fault, hfault⟩ := (hcases settings hsettings).1.1 hbreaks
    rw [hfault] at husable
    obtain ⟨cause, hcause⟩ := husable
    cases hcause
  · obtain ⟨c, x, hc, htimeout, hendless⟩ := (hcases settings hsettings).2.1 hunending
    rw [hc] at husable
    obtain ⟨_, -, hvalid⟩ := husable
    exact hvalid.not_endless htimeout hendless
  · cases hsettings : settingsOf document with
    | error failure =>
        -- Only a document that is no mapping holds no settings, and it is refused.
        rw [houtcome, Ends.error_bind hsettings]
        cases document <;> cases hsettings <;> exact ⟨_, rfl⟩
    | ok settings =>
        obtain ⟨hfits, hends⟩ := h settings hsettings
        have hmade := (settles_ofSettings host settings).ends hfits
        rw [houtcome, Ends.ok_bind hsettings]
        rw [unending_iff] at hends
        cases hc : ofSettings host settings with
        | error failure =>
            rw [hc] at hmade
            exact hmade
        | ok c =>
            rw [hc] at hmade
            exact ⟨settings, hsettings, hmade.isValid fun x hx hendless =>
              hends ⟨c, x, hc, hx, hendless⟩⟩

/-- A host with a configuration whose time limit is no number. -/
def patientHost : Host :=
  { files := ⟨[(["work".toList], .directory),
      (["work".toList, "c.yaml".toList], .file "timeout: .nan\n" 14)]⟩ }

/-- A time limit that is no number is returned as if it were one. -/
theorem load_usable_iff_nan :
    ∃ document, Yaml.readFile patientHost "c.yaml" .configTooLarge = .ok document ∧
      ¬ Usable patientHost document (load patientHost (some "c.yaml")) := by
  have hloaded : (load patientHost (some "c.yaml")).toOption.map (fun c =>
      c.timeout.map fun timeout => (timeout.toRat?, timeout.toFloat.isNaN)) =
        some (some (none, true)) := by decide +kernel
  cases hc : load patientHost (some "c.yaml") with
  | error failure =>
      rw [hc] at hloaded
      cases hloaded
  | ok c =>
      obtain ⟨settings, hsettings, -⟩ := Ends.of_bind_ok hc
      obtain ⟨document, hread, hdocument⟩ := Ends.of_bind_ok hsettings
      refine ⟨document, hread, fun husable => ?_⟩
      have hspec := load_usable_iff hread
      rw [hc] at hspec hloaded
      have hview := Option.some.inj hloaded
      obtain ⟨timeout, htimeout, hlimit⟩ := Option.map_eq_some_iff.1 hview
      obtain ⟨hvalueless, hnan⟩ := Prod.mk.inj hlimit
      cases timeout with
      | int n => cases hvalueless
      | float x =>
          exact (hspec.1.1 husable settings hdocument).2
            ((hspec.2 settings hdocument).2.2 ⟨c, x, rfl, htimeout, .inl hnan⟩)

end Config

end Montage
