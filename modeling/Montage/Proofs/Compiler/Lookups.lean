import Montage.Compiler

/-!
# What a compiler looks up

A handler knows a request only through the fields that it looks up, each under one name or
under two.  `lookups` lists them for every operation, and two requests that agree on these
fields are compiled by the same action (`compile_congr`).  What is known of two requests that
differ in one field is therefore a matter of that field alone.
-/

namespace Montage.Compiler

/-- The fields of a track that replaces the sound. -/
def trackLookups (key : String) : List (List String) :=
  [[key], ["cleanupAudio", "cleanup_audio"]]

/-- The fields of the settings of a custom edit. -/
def settingLookups : List (List String) :=
  [["resolution"], ["resizeMode", "resize_mode"], ["speed"], ["mute"], ["fadeIn", "fade_in"],
    ["fadeOut", "fade_out"], ["videoFilters", "video_filters"], ["audioFilters", "audio_filters"],
    ["volume"], ["format"], ["videoCodec", "video_codec"], ["audioCodec", "audio_codec"]]

/-- The fields of the settings of a join. -/
def joinLookups : List (List String) :=
  [["resolution"], ["resizeMode", "resize_mode"], ["mute"], ["format"]]

/-- The fields that an operation looks up, each with the names under which it may stand. -/
def lookups : Operation → List (List String)
  | .convert => [["filename"], ["format"], ["output"]]
  | .speed => [["filename"], ["speed"], ["output"]]
  | .mute => [["filename"], ["output"]]
  | .addAudio => [["videoFilename", "video_filename"], ["output"]] ++ trackLookups "audio"
  | .custom => [["filename"], ["output"]] ++ (trackLookups "customAudio" ++ settingLookups)
  | .stitch => [["videos"], ["output"]] ++ (trackLookups "customAudio" ++ joinLookups)

/-- Two requests have the same fields of those that are looked up. -/
def Agree (lookups : List (List String)) (request other : Request) : Prop :=
  ∀ names ∈ lookups, request.field names = other.field names

section

variable {names : List String} {lookups more : List (List String)} {request other : Request}

theorem Agree.head (h : Agree (names :: lookups) request other) :
    request.field names = other.field names :=
  h names List.mem_cons_self

theorem agree_cons :
    Agree (names :: lookups) request other ↔
      request.field names = other.field names ∧ Agree lookups request other :=
  List.forall_mem_cons

theorem agree_append :
    Agree (lookups ++ more) request other ↔
      Agree lookups request other ∧ Agree more request other :=
  List.forall_mem_append

end

variable {c : Compiler} {request other : Request}

theorem requiredName_congr {keys : List String} (h : request.field keys = other.field keys) :
    Request.requiredName request keys = Request.requiredName other keys := by
  unfold Request.requiredName
  rw [h]

theorem target_congr (h : request.field ["output"] = other.field ["output"])
    (task extension : String) :
    c.target request task extension = c.target other task extension := by
  unfold target
  rw [h]

theorem replacement_congr {key : String} {loop : Bool}
    (h : Agree (trackLookups key) request other) :
    c.replacement request key loop = c.replacement other key loop := by
  obtain ⟨hname, hcleanup, -⟩ := by simpa only [trackLookups, agree_cons] using h
  unfold replacement
  rw [hname, hcleanup]

/-- A blank name names no track. -/
theorem replacement_of_blank {key : String} {loop : Bool}
    (h : (request.field [key]).isBlank = true) : c.replacement request key loop = pure none := by
  unfold replacement
  simp only [h, if_true]

theorem readEdit_congr (h : Agree settingLookups request other) (sound : Option Sound) :
    readEdit request sound = readEdit other sound := by
  obtain ⟨hsize, hmode, hspeed, hmute, hfadeIn, hfadeOut, hvideo, haudio, hvolume, hformat,
    hvideoCodec, haudioCodec, -⟩ := by simpa only [settingLookups, agree_cons] using h
  unfold readEdit
  rw [hsize, hmode, hspeed, hmute, hfadeIn, hfadeOut, hvideo, haudio, hvolume, hformat,
    hvideoCodec, haudioCodec]

/-- A custom edit depends on the clip, the track, the settings and the output. -/
theorem custom_congr (hname : request.field ["filename"] = other.field ["filename"])
    (houtput : request.field ["output"] = other.field ["output"])
    (htrack : c.replacement request "customAudio" true = c.replacement other "customAudio" true)
    (hsettings : Agree settingLookups request other) : c.custom request = c.custom other := by
  simp only [custom, requiredName_congr hname, htrack, readEdit_congr hsettings,
    target_congr houtput]

/-- A join depends on the list of names, the track, the settings and the output. -/
theorem stitch_congr
    (hnames : Request.nameList (request.field ["videos"]) "videos" =
      Request.nameList (other.field ["videos"]) "videos")
    (houtput : request.field ["output"] = other.field ["output"])
    (htrack : c.replacement request "customAudio" true = c.replacement other "customAudio" true)
    (hsettings : Agree joinLookups request other) : c.stitch request = c.stitch other := by
  obtain ⟨hsize, hmode, hmute, hformat, -⟩ := by
    simpa only [joinLookups, agree_cons] using hsettings
  simp only [stitch, hnames, hsize, hmode, hmute, hformat, htrack, target_congr houtput]

/-- **An operation depends on the fields that it looks up.** -/
theorem perform_congr {operation : Operation} (h : Agree (lookups operation) request other) :
    c.perform request operation = c.perform other operation := by
  cases operation with
  | convert =>
      obtain ⟨hname, hformat, houtput, -⟩ := by simpa only [lookups, agree_cons] using h
      simp only [perform, convert, requiredName_congr hname, hformat, target_congr houtput]
  | speed =>
      obtain ⟨hname, hspeed, houtput, -⟩ := by simpa only [lookups, agree_cons] using h
      simp only [perform, changeSpeed, requiredName_congr hname, hspeed, target_congr houtput]
  | mute =>
      obtain ⟨hname, houtput, -⟩ := by simpa only [lookups, agree_cons] using h
      simp only [perform, mute, requiredName_congr hname, target_congr houtput]
  | addAudio =>
      obtain ⟨⟨hname, houtput, -⟩, htrack⟩ := by
        simpa only [lookups, agree_append, agree_cons] using h
      simp only [perform, addAudio, requiredName_congr hname, htrack.head, replacement_congr htrack,
        target_congr houtput]
  | custom =>
      obtain ⟨⟨hname, houtput, -⟩, htrack, hsettings⟩ := by
        simpa only [lookups, agree_append, agree_cons] using h
      exact custom_congr hname houtput (replacement_congr htrack) hsettings
  | stitch =>
      obtain ⟨⟨hnames, houtput, -⟩, htrack, hsettings⟩ := by
        simpa only [lookups, agree_append, agree_cons] using h
      exact congrArg settled
        (stitch_congr (by rw [hnames]) houtput (replacement_congr htrack) hsettings)

/-- Requests that name the same operation, and for which it does the same, are compiled
alike. -/
theorem compile_congr_of_perform
    (hoperation : request.field ["operation"] = other.field ["operation"])
    (h : ∀ operation, Operation.ofValue (other.field ["operation"]) = .ok operation →
      c.perform request operation = c.perform other operation)
    (probe : Clip → Action (Option Number)) : c.compile request probe = c.compile other probe := by
  have hdraft : c.draft request = c.draft other := by
    unfold draft
    rw [hoperation]
    cases hvalue : Operation.ofValue (other.field ["operation"]) with
    | error failure => rfl
    | ok operation =>
        have hpure : (liftM (Except.ok operation : Except Failure Operation) : Action Operation) =
          pure operation := rfl
        rw [hpure, pure_bind, pure_bind, h operation hvalue]
  rw [compile, compile, hdraft]

/-- **A compilation depends on the operation and on the fields that it looks up.** -/
theorem compile_congr (hoperation : request.field ["operation"] = other.field ["operation"])
    (h : ∀ operation, Operation.ofValue (other.field ["operation"]) = .ok operation →
      Agree (lookups operation) request other)
    (probe : Clip → Action (Option Number)) : c.compile request probe = c.compile other probe :=
  compile_congr_of_perform hoperation (fun operation hvalue => perform_congr (h operation hvalue))
    probe

end Montage.Compiler
