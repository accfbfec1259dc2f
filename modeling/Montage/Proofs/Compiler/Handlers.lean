import Montage.Proofs.Compiler.Reading
import Montage.Proofs.Ends

/-!
# The handlers as readings

The readings of every operation in the order in which its handler makes them, and for
every handler the proof that it goes through these readings and then calls its planner
with the clips that were found.
-/

namespace Montage.Compiler

variable {β : Type}

/-- The readings of a track that replaces the sound; none if no track is named. -/
def trackReadings (request : Request) (key : String) : List Reading :=
  if (request.field [key]).isBlank then []
  else [.clip (request.field [key]), .switch ["cleanupAudio", "cleanup_audio"] "cleanupAudio"]

/-- The readings of the settings of a custom edit. -/
def settingReadings : List Reading :=
  [.size, .speed none none, .switch ["mute"] "mute", .number ["fadeIn", "fade_in"] "fadeIn",
    .number ["fadeOut", "fade_out"] "fadeOut",
    .filters ["videoFilters", "video_filters"] "videoFilters",
    .filters ["audioFilters", "audio_filters"] "audioFilters", .number ["volume"] "volume",
    .format, .codec ["videoCodec", "video_codec"] "videoCodec",
    .codec ["audioCodec", "audio_codec"] "audioCodec"]

/-- The names of the clips to be joined; none if they cannot be read. -/
def joinedNames (request : Request) : List String :=
  (Request.nameList (request.field ["videos"]) "videos").toOption.getD []

/-- The readings of an operation, in order. -/
def readings (request : Request) : Operation → List Reading
  | .convert =>
    [.name ["filename"], .format,
      .demand (!(request.field ["format"]).isBlank) "format" .required,
      .clip (request.field ["filename"]), .target]
  | .speed =>
    [.name ["filename"],
      .demand (!(request.field ["speed"]).isBlank) "speed"
        (.speedMissing (Decimal.briefText speedFloor) (Decimal.briefText speedCeiling)),
      .speed (some speedFloor) (some speedCeiling), .clip (request.field ["filename"]), .target]
  | .mute => [.name ["filename"], .clip (request.field ["filename"]), .target]
  | .addAudio =>
    .demand (!(request.field ["audio"]).isBlank) "audio" .audioMissing ::
      .name ["videoFilename", "video_filename"] ::
      .clip (request.field ["videoFilename", "video_filename"]) ::
      (trackReadings request "audio" ++ [.target])
  | .custom =>
    .name ["filename"] :: .clip (request.field ["filename"]) ::
      (trackReadings request "customAudio" ++ (settingReadings ++ [.target]))
  | .stitch =>
    .names :: .demand (2 ≤ (joinedNames request).length) "videos" .tooFewClips :: .size ::
      .switch ["mute"] "mute" :: .format ::
      ((joinedNames request).map (fun name => .clip (.text name)) ++
        (trackReadings request "customAudio" ++ [.target]))

section

variable {c : Compiler} {request : Request} {host : Host} {rest : Except Failure β → Prop}

theorem reads_find (v : Value) : (c.find v).Reads := fun _ => rfl

theorem reads_target (task extension : String) : (c.target request task extension).Reads := by
  unfold target
  simp only
  split
  · refine Action.reads_bind Action.reads_get fun host => ?_
    split
    · exact fun _ => rfl
    · exact fun _ => rfl
  · exact Action.reads_lift _

/-- Whether an output can be named depends on the request and the clock only. -/
theorem outcome_target (task extension : String) :
    Reading.run c request host .target =
      outcome (Action.result (c.target request task extension) host) := by
  simp only [Reading.run, target]
  split
  · rw [Action.result_get_bind, Action.result_get_bind]
    simp only [OutputName.make]
    cases OutputName.milliseconds host.epoch with
    | error fault => rfl
    | ok ms => exact Eq.trans (b := .ok ()) rfl rfl
  · rfl

/-- A line that is told never stops a handler, and only adds to what is printed. -/
theorem runOn_tell (line : String) (host : Host) :
    ∃ printed, (c.tell line).runOn host = (.ok (), { host with printed }) := by
  unfold tell Action.log
  rw [Action.runOn_bind (Action.runOn_get host)]
  split
  · exact ⟨host.printed, rfl⟩
  · exact ⟨host.printed ++ line ++ "\n", rfl⟩

/-- What comes to the same on all hosts comes to it after a line was told. -/
theorem result_tell (line : String) {next : Unit → Action β} {x : Except Failure β}
    (h : ∀ host, (next ()).result host = x) :
    Action.result (c.tell line >>= next) host = x := by
  obtain ⟨printed, htell⟩ := runOn_tell (c := c) line host
  rw [Action.result, Action.runOn_bind htell]
  exact h _

/-- The track that replaces the sound, if the request names one. -/
def Replaces (c : Compiler) (request : Request) (host : Host) (key : String) (loop : Bool)
    (sound : Option Sound) : Prop :=
  ((request.field [key]).isBlank = true ∧ sound = none) ∨
    ((request.field [key]).isBlank = false ∧ ∃ clip temporary,
      Resolver.resolve host c.directories (request.field [key]) = .ok clip ∧
        Request.switch (request.field ["cleanupAudio", "cleanup_audio"]) "cleanupAudio" false =
          .ok temporary ∧
        sound = some (.replaced clip loop temporary))

/-- The request names one track at most. -/
theorem Replaces.unique {key : String} {loop : Bool} {sound other : Option Sound}
    (h : Replaces c request host key loop sound) (h' : Replaces c request host key loop other) :
    sound = other := by
  rcases h with ⟨hblank, rfl⟩ | ⟨hgiven, clip, temporary, hclip, htemporary, rfl⟩
  · rcases h' with ⟨-, rfl⟩ | ⟨hgiven, -⟩
    · rfl
    · rw [hblank] at hgiven
      cases hgiven
  · rcases h' with ⟨hblank, -⟩ | ⟨-, clip', temporary', hclip', htemporary', rfl⟩
    · rw [hblank] at hgiven
      cases hgiven
    · cases hclip.symm.trans hclip'
      cases htemporary.symm.trans htemporary'
      rfl

/-- Every planner knows what becomes of the sound. -/
theorem Replaces.check {key : String} {loop : Bool} {sound : Option Sound}
    (h : Replaces c request host key loop sound) (mute : Bool) :
    (chooseSound sound mute).check = .ok () := by
  rcases h with ⟨-, rfl⟩ | ⟨-, clip, temporary, -, -, rfl⟩
  · cases mute <;> rfl
  · rfl

theorem follows_replacement {key : String} {loop : Bool} {readings : List Reading}
    {next : Option Sound → Action β}
    (hnext : ∀ sound, Replaces c request host key loop sound →
      Follows c request host rest readings ((next sound).result host)) :
    Follows c request host rest (trackReadings request key ++ readings)
      (Action.result (c.replacement request key loop >>= next) host) := by
  unfold trackReadings replacement
  simp only
  split
  · next hblank => exact hnext none (.inl ⟨hblank, rfl⟩)
  · next hgiven =>
      rw [bind_assoc]
      refine Follows.action (reads_find _) rfl fun clip hclip => ?_
      rw [bind_assoc]
      refine Follows.lifted rfl fun temporary htemporary => ?_
      exact hnext _ (.inr ⟨by simpa using hgiven, clip, temporary, hclip, htemporary, rfl⟩)

/-- The settings of a custom edit are read in order. -/
theorem follows_readEdit {replacement : Option Sound} {readings : List Reading}
    {next : Edit Number → Except Failure β}
    (hnext : ∀ edit, readEdit request replacement = .ok edit →
      Follows c request host rest readings (next edit)) :
    Follows c request host rest (settingReadings ++ readings)
      (readEdit request replacement >>= next) := by
  unfold readEdit at hnext ⊢
  simp only [bind_assoc, pure_bind]
  refine Follows.step rfl fun resize hresize => ?_
  refine Follows.step rfl fun speed hspeed => ?_
  refine Follows.step rfl fun mute hmute => ?_
  refine Follows.step rfl fun fadeIn hfadeIn => ?_
  refine Follows.step rfl fun fadeOut hfadeOut => ?_
  refine Follows.step rfl fun videoFilters hvideoFilters => ?_
  refine Follows.step rfl fun audioFilters haudioFilters => ?_
  refine Follows.step rfl fun volume hvolume => ?_
  refine Follows.step rfl fun format hformat => ?_
  refine Follows.step rfl fun videoCodec hvideoCodec => ?_
  refine Follows.step rfl fun audioCodec haudioCodec => ?_
  refine hnext _ ?_
  simp only [hresize, hspeed, hmute, hfadeIn, hfadeOut, hvideoFilters, haudioFilters, hvolume,
    hformat, hvideoCodec, haudioCodec]
  rfl

/-- The settings of an edit that planners compute with are those that are read from the
request. -/
structure SettingsRead (request : Request) (replacement : Option Sound) (edit : Edit Number)
    (speed : Float) (mute : Bool) (fadeIn fadeOut volume : Option Float) : Prop where
  readSpeed : Request.speed (request.field ["speed"]) "speed" none none = .ok speed
  readMute : Request.switch (request.field ["mute"]) "mute" false = .ok mute
  readFadeIn : Request.number? (request.field ["fadeIn", "fade_in"]) "fadeIn" = .ok fadeIn
  readFadeOut : Request.number? (request.field ["fadeOut", "fade_out"]) "fadeOut" = .ok fadeOut
  readVolume : Request.number? (request.field ["volume"]) "volume" = .ok volume
  speed : edit.speed = .float speed
  fadeIn : edit.fadeIn = .float (fadeIn.getD 0.0)
  fadeOut : edit.fadeOut = .float (fadeOut.getD 0.0)
  volume : edit.volume = .float (volume.getD 1.0)
  sound : edit.sound = chooseSound replacement mute

theorem settings_of_readEdit {replacement : Option Sound} {edit : Edit Number}
    (h : readEdit request replacement = .ok edit) :
    ∃ speed mute fadeIn fadeOut volume,
      SettingsRead request replacement edit speed mute fadeIn fadeOut volume := by
  unfold readEdit at h
  obtain ⟨resize, -, h⟩ := Ends.of_bind_ok h
  obtain ⟨speed, hspeed, h⟩ := Ends.of_bind_ok h
  obtain ⟨mute, hmute, h⟩ := Ends.of_bind_ok h
  obtain ⟨fadeIn, hfadeIn, h⟩ := Ends.of_bind_ok h
  obtain ⟨fadeOut, hfadeOut, h⟩ := Ends.of_bind_ok h
  obtain ⟨videoFilters, -, h⟩ := Ends.of_bind_ok h
  obtain ⟨audioFilters, -, h⟩ := Ends.of_bind_ok h
  obtain ⟨volume, hvolume, h⟩ := Ends.of_bind_ok h
  obtain ⟨format, -, h⟩ := Ends.of_bind_ok h
  obtain ⟨videoCodec, -, h⟩ := Ends.of_bind_ok h
  obtain ⟨audioCodec, -, h⟩ := Ends.of_bind_ok h
  cases h
  exact ⟨speed, mute, fadeIn, fadeOut, volume, hspeed, hmute, hfadeIn, hfadeOut, hvolume, rfl,
    rfl, rfl, rfl, rfl⟩

theorem of_readEdit {replacement : Option Sound} {edit : Edit Number}
    (h : readEdit request replacement = .ok edit) :
    ∃ mute speed fadeOut, edit.sound = chooseSound replacement mute ∧
      edit.speed = .float speed ∧ edit.fadeOut = .float fadeOut ∧
      Request.speed (request.field ["speed"]) "speed" none none = .ok speed ∧
      Request.switch (request.field ["mute"]) "mute" false = .ok mute := by
  obtain ⟨speed, mute, fadeIn, fadeOut, volume, hread⟩ := settings_of_readEdit h
  exact ⟨mute, speed, _, hread.sound, hread.speed, hread.fadeOut, hread.readSpeed, hread.readMute⟩

/-- A name that has to be given is the text of its field. -/
theorem field_of_requiredName {keys : List String} {name : String}
    (h : Request.requiredName request keys = .ok name) : request.field keys = .text name := by
  unfold Request.requiredName at h
  split at h
  · next s hfield =>
      split at h
      · cases h
      · cases h
        exact hfield
  · cases h
  · cases h

/-- A format is missing exactly if the field is blank. -/
theorem isBlank_of_format {v : Value} {format : Option String}
    (h : Request.format? v = .ok format) : v.isBlank = format.isNone := by
  unfold Request.format? at h
  cases hblank : v.isBlank with
  | true =>
      rw [hblank, if_pos rfl] at h
      cases h
      rfl
  | false =>
      rw [hblank, if_neg Bool.false_ne_true] at h
      obtain ⟨word, -, h⟩ := Ends.of_bind_ok h
      simp only at h
      split at h
      · cases h
        rfl
      · obtain ⟨shown, -, h⟩ := Ends.of_bind_ok h
        cases h

theorem convert_follows (request : Request) :
    Follows c request host
      (fun x => ∃ clip target format,
        Resolver.resolve host c.directories (request.field ["filename"]) = .ok clip ∧
          x = Plan.convert clip target format)
      (readings request .convert) (Action.result (c.convert request) host) := by
  unfold convert readings
  refine Follows.lifted rfl fun name hname => ?_
  have hfield := field_of_requiredName hname
  refine Follows.lifted rfl fun format hformat => ?_
  have hblank := isBlank_of_format hformat
  rw [hblank, hfield]
  cases format with
  | none => exact Follows.demand (fun _ => rfl) (fun h => by cases h)
  | some format =>
      refine Follows.demand (fun h => by cases h) fun _ => ?_
      refine Follows.action (reads_find _) rfl fun clip hclip => ?_
      refine Follows.action (reads_target _ _) (outcome_target _ _) fun target _ => ?_
      exact ⟨clip, target, format, hclip, result_tell _ fun _ => rfl⟩

theorem changeSpeed_follows (request : Request) :
    Follows c request host
      (fun x => ∃ clip target ratio,
        Resolver.resolve host c.directories (request.field ["filename"]) = .ok clip ∧
          Request.speed (request.field ["speed"]) "speed" (some speedFloor) (some speedCeiling) =
            .ok ratio ∧
          x = Plan.changeSpeed clip (.float ratio) target)
      (readings request .speed) (Action.result (c.changeSpeed request) host) := by
  unfold changeSpeed readings
  refine Follows.lifted rfl fun name hname => ?_
  have hfield := field_of_requiredName hname
  rw [hfield]
  refine Follows.refused (by simp) fun _ => ?_
  refine Follows.lifted rfl fun ratio hratio => ?_
  refine Follows.action (reads_find _) rfl fun clip hclip => ?_
  refine Follows.action (reads_target _ _) (outcome_target _ _) fun target _ => ?_
  exact ⟨clip, target, ratio, hclip, hratio, result_tell _ fun _ => rfl⟩

theorem mute_follows (request : Request) :
    Follows c request host
      (fun x => ∃ clip target,
        Resolver.resolve host c.directories (request.field ["filename"]) = .ok clip ∧
          x = Plan.mute clip target)
      (readings request .mute) (Action.result (c.mute request) host) := by
  unfold mute readings
  refine Follows.lifted rfl fun name hname => ?_
  rw [field_of_requiredName hname]
  refine Follows.action (reads_find _) rfl fun clip hclip => ?_
  refine Follows.action (reads_target _ _) (outcome_target _ _) fun target _ => ?_
  exact ⟨clip, target, hclip, result_tell _ fun _ => rfl⟩

theorem addAudio_follows (request : Request) :
    Follows c request host
      (fun x => ∃ clip track temporary target,
        Resolver.resolve host c.directories
            (request.field ["videoFilename", "video_filename"]) = .ok clip ∧
          Resolver.resolve host c.directories (request.field ["audio"]) = .ok track ∧
          x = Plan.replaceSound clip track false temporary target)
      (readings request .addAudio) (Action.result (c.addAudio request) host) := by
  unfold addAudio readings
  refine Follows.refused (by simp) fun hgiven => ?_
  refine Follows.lifted rfl fun name hname => ?_
  rw [field_of_requiredName hname]
  refine Follows.action (reads_find _) rfl fun clip hclip => ?_
  refine follows_replacement fun sound hsound => ?_
  refine Follows.action (reads_target _ _) (outcome_target _ _) fun target _ => ?_
  rcases hsound with ⟨hnone, -⟩ | ⟨-, track, temporary, htrack, -, rfl⟩
  · simp [hnone] at hgiven
  · exact ⟨clip, track, temporary, target, hclip, htrack, result_tell _ fun _ => rfl⟩

/-- A custom edit is drafted, and what follows runs on the same host but for what was
printed. -/
theorem custom_follows (request : Request) (next : Draft Number → Action β) :
    Follows c request host
      (fun x => ∃ clip sound edit target printed,
        Resolver.resolve host c.directories (request.field ["filename"]) = .ok clip ∧
          Replaces c request host "customAudio" true sound ∧ readEdit request sound = .ok edit ∧
          x = (next (edit.plan clip target)).result { host with printed })
      (readings request .custom) (Action.result (c.custom request >>= next) host) := by
  unfold custom readings
  simp only [bind_assoc, pure_bind]
  refine Follows.lifted rfl fun name hname => ?_
  rw [field_of_requiredName hname]
  refine Follows.action (reads_find _) rfl fun clip hclip => ?_
  refine follows_replacement fun sound hsound => ?_
  rw [Action.result_bind (Action.reads_lift _)]
  refine follows_readEdit fun edit hedit => ?_
  refine Follows.action (reads_target _ _) (outcome_target _ _) fun target _ => ?_
  obtain ⟨printed, htell⟩ := runOn_tell (c := c) _ host
  refine ⟨clip, sound, edit, target, printed, hclip, hsound, hedit, ?_⟩
  rw [Action.result, Action.runOn_bind htell]
  rfl

/-- Several clips are found one after the other. -/
theorem follows_resolveAll {names : List String} {readings : List Reading}
    {next : List Clip → Except Failure β}
    (hnext : ∀ clips, Resolver.resolveAll host c.directories (names.map .text) = .ok clips →
      Follows c request host rest readings (next clips)) :
    Follows c request host rest (names.map (fun name => .clip (.text name)) ++ readings)
      (Resolver.resolveAll host c.directories (names.map .text) >>= next) := by
  induction names generalizing next with
  | nil => exact hnext [] rfl
  | cons name names ih =>
      rw [List.map_cons, List.map_cons, Resolver.resolveAll, bind_assoc]
      rw [List.map_cons, Resolver.resolveAll] at hnext
      refine Follows.step rfl fun clip hclip => ?_
      rw [bind_assoc]
      refine ih fun clips hclips => hnext _ ?_
      rw [hclip]
      change Resolver.resolveAll _ _ _ >>= _ = _
      rw [hclips]
      rfl

/-- There are as many clips as names. -/
theorem length_of_resolveAll {directories : List String} {values : List Value} {clips : List Clip}
    (h : Resolver.resolveAll host directories values = .ok clips) :
    clips.length = values.length := by
  induction values generalizing clips with
  | nil =>
      cases h
      rfl
  | cons v rest ih =>
      obtain ⟨first, -, h⟩ := Ends.of_bind_ok h
      obtain ⟨others, hothers, h⟩ := Ends.of_bind_ok h
      cases h
      rw [List.length_cons, List.length_cons, ih hothers]

theorem stitch_follows (request : Request) :
    Follows c request host
      (fun x => ∃ clips resize mute sound target format extension,
        Resolver.resolveAll host c.directories ((joinedNames request).map .text) = .ok clips ∧
          Request.switch (request.field ["mute"]) "mute" false = .ok mute ∧
          Replaces c request host "customAudio" true sound ∧
          Action.result (c.target request "stitched" extension) host = .ok target ∧
          x = Plan.join clips resize (chooseSound sound mute) target format)
      (readings request .stitch) (Action.result (c.stitch request) host) := by
  unfold stitch readings
  refine Follows.lifted rfl fun names hnames => ?_
  have hjoined : joinedNames request = names := by
    rw [joinedNames, hnames]
    rfl
  rw [hjoined]
  refine Follows.refused (by simp) fun _ => ?_
  refine Follows.lifted rfl fun resize _ => ?_
  refine Follows.lifted rfl fun mute hmute => ?_
  refine Follows.lifted rfl fun format _ => ?_
  rw [Action.result_get_bind, Action.result_bind (Action.reads_lift _)]
  refine follows_resolveAll fun clips hclips => ?_
  refine follows_replacement fun sound hsound => ?_
  refine Follows.action (reads_target _ _) (outcome_target _ _) fun target htarget => ?_
  exact ⟨clips, resize, mute, sound, target, format, _, hjoined ▸ hclips, hmute, hsound, htarget,
    result_tell _ fun _ => rfl⟩

end

end Montage.Compiler
