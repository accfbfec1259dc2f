import Montage.Proofs.Compiler.Handlers
import Montage.Proofs.Compiler.Lookups
import Montage.Proofs.Plan.CallerFilters
import Montage.Proofs.Request.Lists
import Montage.Proofs.Request.Names

/-!
# Lists that are sent as texts

The clips of a join may be sent as a list or as the JSON text of one: the request is compiled by
the same action.  The filters of a custom edit are looked for in a text in another way, so that
the JSON text of a list stands for other filters than the list.  The request fails in the same
way, but where filters show in a plan, the plan is another one (`compile_list_text`).
-/

namespace Montage.Compiler

/-- The sound of the source is neither replaced nor muted. -/
def KeepsSound (request : Request) : Prop :=
  (request.field ["customAudio"]).isBlank = true ∧
    Request.switch (request.field ["mute"]) "mute" false = .ok false

/-- The fields of filters. -/
def filterKeys : List String := ["videoFilters", "audioFilters"]

/-- The same with all the names under which they may stand. -/
def filterLookups : List (List String) :=
  [["videoFilters", "video_filters"], ["audioFilters", "audio_filters"]]

/-- Two custom edits are the same request but for the filters. -/
def AgreeElsewhere (request other : Request) : Prop :=
  ∀ names ∈ lookups .custom, names ∉ filterLookups → request.field names = other.field names

/-- The filters in a field show in the plan of a request: it is a custom edit, and what is
filtered is there. -/
def ShowsFilters (request : Request) (key : String) : Prop :=
  Operation.ofValue (request.field ["operation"]) = .ok .custom ∧
    (key = "audioFilters" → KeepsSound request)

variable {c : Compiler} {request other : Request} {probe : Clip → Action (Option Number)}
  {host : Host}

/-- The track that a request is found to name. -/
theorem replaces_of_replacement {key : String} {loop : Bool} {sound : Option Sound} {after : Host}
    (h : (c.replacement request key loop).runOn host = (.ok sound, after)) :
    Replaces c request host key loop sound := by
  have hfollows : Follows c request host (fun x => ∃ sound,
      Replaces c request host key loop sound ∧ x = .ok sound) (trackReadings request key ++ [])
      (Action.result (c.replacement request key loop >>= pure) host) :=
    follows_replacement fun sound hsound => ⟨sound, hsound, rfl⟩
  have hresult : Action.result (c.replacement request key loop >>= pure) host = .ok sound := by
    rw [bind_pure, Action.result, h]
  obtain ⟨found, hfound, hsame⟩ := hfollows.of_ok hresult
  cases hsame
  exact hfound

/-- Whether an edit keeps the sound is known from the request. -/
theorem keepsSound_iff {sound : Option Sound} {edit : Edit Number}
    (hsound : Replaces c request host "customAudio" true sound)
    (hedit : readEdit request sound = .ok edit) :
    edit.sound.isOriginal = true ↔ KeepsSound request := by
  obtain ⟨mute, -, -, hchosen, -, -, -, hmute⟩ := of_readEdit hedit
  rw [hchosen, KeepsSound, hmute]
  rcases hsound with ⟨hblank, rfl⟩ | ⟨hgiven, track, temporary, -, -, rfl⟩
  · rw [hblank]
    cases mute <;> simp [chooseSound, Sound.isOriginal]
  · rw [hgiven]
    simp [chooseSound, Sound.isOriginal]

section

variable {readVideo readAudio : List String → List String → Prop}

/-- The settings of requests that differ in the filters only, which are read as related. -/
theorem readEdit_alike (hothers : AgreeElsewhere other request)
    (hvideo : Alike readVideo
      (Request.filters (other.field ["videoFilters", "video_filters"]) "videoFilters")
      (Request.filters (request.field ["videoFilters", "video_filters"]) "videoFilters"))
    (haudio : Alike readAudio
      (Request.filters (other.field ["audioFilters", "audio_filters"]) "audioFilters")
      (Request.filters (request.field ["audioFilters", "audio_filters"]) "audioFilters"))
    (sound : Option Sound) :
    Alike (fun edit' edit => ∃ video audio, edit' = Edit.withFilters edit video audio ∧
        readVideo video edit.videoFilters ∧ readAudio audio edit.audioFilters)
      (readEdit other sound) (readEdit request sound) := by
  simp only [AgreeElsewhere, lookups, settingLookups, List.forall_mem_append,
    List.forall_mem_cons] at hothers
  obtain ⟨-, -, hsize, hmode, hspeed, hmute, hfadeIn, hfadeOut, -, -, hvolume, hformat,
    hvideoCodec, haudioCodec, -⟩ := hothers
  unfold readEdit
  rw [hsize (by decide), hmode (by decide), hspeed (by decide), hmute (by decide),
    hfadeIn (by decide), hfadeOut (by decide), hvolume (by decide), hformat (by decide),
    hvideoCodec (by decide), haudioCodec (by decide)]
  refine Alike.after fun resize _ => Alike.after fun speed _ => Alike.after fun mute _ =>
    Alike.after fun fadeIn _ => Alike.after fun fadeOut _ => ?_
  refine hvideo.bind fun video videoOwn _ _ hvideo => ?_
  refine haudio.bind fun audio audioOwn _ _ haudio => ?_
  refine Alike.after fun volume _ => Alike.after fun format _ => Alike.after fun videoCodec _ =>
    Alike.after fun audioCodec _ => ?_
  exact ⟨video, audio, rfl, hvideo, haudio⟩

/-- Drafts that are alike are answered alike. -/
theorem answer_alike {same : Plan Number → Plan Number → Prop} {draft' draft : Draft Number}
    (h : Draft.Alike same draft' draft) (probe : Clip → Action (Option Number)) (host : Host) :
    Alike same ((answer probe draft').result host) ((answer probe draft).result host) := by
  cases draft' with
  | settled outcome' =>
      cases draft with
      | settled outcome => exact h
      | awaiting => exact h.elim
  | awaiting clip' resume' =>
      cases draft with
      | settled => exact h.elim
      | awaiting clip resume =>
          obtain ⟨rfl, hresume⟩ := h
          refine Action.alike_bind fun length after _ => ?_
          refine Action.alike_bind fun length after _ => ?_
          exact hresume length

/-- Custom edits of requests that differ in the filters only: their plans differ where the
filters do that are used. -/
theorem custom_alike (hothers : AgreeElsewhere other request)
    (hvideo : Alike readVideo
      (Request.filters (other.field ["videoFilters", "video_filters"]) "videoFilters")
      (Request.filters (request.field ["videoFilters", "video_filters"]) "videoFilters"))
    (haudio : Alike readAudio
      (Request.filters (other.field ["audioFilters", "audio_filters"]) "audioFilters")
      (Request.filters (request.field ["audioFilters", "audio_filters"]) "audioFilters")) :
    Alike (fun plan' plan => ∃ (edit : Edit Number) (video audio : List String),
        (edit.sound.isOriginal = true ↔ KeepsSound request) ∧
          readVideo video edit.videoFilters ∧ readAudio audio edit.audioFilters ∧
          (plan' = plan ↔ edit.SameFilters video audio))
      (Action.result (c.custom other >>= answer probe) host)
      (Action.result (c.custom request >>= answer probe) host) := by
  have hname := hothers ["filename"] (by decide +kernel) (by decide +kernel)
  have houtput := hothers ["output"] (by decide +kernel) (by decide +kernel)
  have htrack : Agree (trackLookups "customAudio") other request := by
    have hall : ∀ names ∈ trackLookups "customAudio", names ∈ lookups .custom ∧
        names ∉ filterLookups := by decide +kernel
    exact fun names hnames => hothers names (hall names hnames).1 (hall names hnames).2
  unfold custom
  simp only [bind_assoc, pure_bind, requiredName_congr hname, replacement_congr htrack,
    target_congr houtput]
  refine Action.alike_bind fun name _ _ => Action.alike_bind fun clip _ _ => ?_
  refine Action.alike_bind fun sound after hsound => ?_
  refine Action.alike_lift_bind (readEdit_alike hothers hvideo haudio sound) ?_
  rintro _ edit - hedit ⟨video, audio, rfl, hvideo, haudio⟩
  refine Action.alike_bind fun target _ _ => Action.alike_bind fun _ after _ => ?_
  refine (answer_alike (edit.plan_alike video audio clip target) probe after).mono ?_
  intro plan' plan hsame
  exact ⟨edit, video, audio, keepsSound_iff (replaces_of_replacement hsound) hedit, hvideo, haudio,
    hsame⟩

end

/-- A join depends on the clips by their names only. -/
theorem compile_videos_congr {v w : Value} (h : ∀ name, Request.nameList v name =
    Request.nameList w name) :
    c.compile (request.withField "videos" v) probe =
      c.compile (request.withField "videos" w) probe := by
  have hother (names : List String) (hnames : "videos" ∉ names) :
      (request.withField "videos" v).field names = (request.withField "videos" w).field names := by
    rw [Request.field_withField_of_not_mem hnames, Request.field_withField_of_not_mem hnames]
  have hlookups : ∀ operation, operation ≠ .stitch → ∀ names ∈ lookups operation,
      "videos" ∉ names := by
    intro operation hoperation
    cases operation with
    | stitch => exact absurd rfl hoperation
    | convert | speed | mute | addAudio | custom => decide +kernel
  refine compile_congr_of_perform (hother _ (by decide)) (fun operation _ => ?_) probe
  by_cases hstitch : operation = .stitch
  · subst hstitch
    have hrest : ∀ names ∈ trackLookups "customAudio" ++ joinLookups, "videos" ∉ names := by
      decide +kernel
    obtain ⟨htrack, hsettings⟩ := agree_append.1 fun names hnames =>
      hother names (hrest names hnames)
    refine congrArg settled (stitch_congr ?_ (hother _ (by decide)) (replacement_congr htrack)
      hsettings)
    rw [Request.field_withField_self, Request.field_withField_self, h]
  · exact perform_congr fun names hnames => hother names (hlookups operation hstitch names hnames)

/-- No other operation looks up filters. -/
theorem filters_not_looked_up {key : String} (hkey : key ∈ filterKeys) {operation : Operation}
    (hoperation : operation ≠ .custom) : ∀ names ∈ lookups operation, key ∉ names := by
  have hall : ∀ key ∈ filterKeys, ∀ names ∈ lookups operation, key ∉ names := by
    cases operation with
    | custom => exact absurd rfl hoperation
    | convert | speed | mute | addAudio | stitch => decide +kernel
  exact hall key hkey

/-- Of two custom edits with different filters in one field the plans differ where these
show. -/
theorem custom_withField_alike {key : String} (hkey : key ∈ filterKeys) {v w : Value}
    {read read' : List String} (hv : ∀ name, Request.filters v name = .ok read)
    (hw : ∀ name, Request.filters w name = .ok read')
    (hne : read.map (Filter.ofExpression (α := Number)) ≠ read'.map Filter.ofExpression)
    (hoperation : Operation.ofValue (request.field ["operation"]) = .ok .custom) :
    Alike (fun plan' plan => plan' = plan ↔ ¬ ShowsFilters request key)
      (Action.result (c.custom (request.withField key v) >>= answer probe) host)
      (Action.result (c.custom (request.withField key w) >>= answer probe) host) := by
  have hapart : ∀ key ∈ filterKeys, key ∉ ["customAudio"] ∧ key ∉ ["mute"] ∧
      ∀ names ∈ lookups .custom, names ∉ filterLookups → key ∉ names := by decide +kernel
  obtain ⟨htrack, hmute, hlookups⟩ := hapart key hkey
  have hfield (names : List String) (hnames : key ∉ names) (v : Value) :
      (request.withField key v).field names = request.field names :=
    Request.field_withField_of_not_mem hnames
  have hothers : AgreeElsewhere (request.withField key v) (request.withField key w) := by
    intro names hnames hother
    rw [hfield names (hlookups names hnames hother), hfield names (hlookups names hnames hother)]
  have hkeeps : KeepsSound (request.withField key w) ↔ KeepsSound request := by
    rw [KeepsSound, KeepsSound, hfield _ htrack, hfield _ hmute]
  have hread (names : List String) :
      Alike (fun own other => own.map (Filter.ofExpression (α := Number)) ≠
          other.map Filter.ofExpression)
        (Request.filters ((request.withField key v).field (key :: names)) key)
        (Request.filters ((request.withField key w).field (key :: names)) key) := by
    rw [Request.field_withField_self, Request.field_withField_self, hv, hw]
    exact hne
  have hunread (names : List String) (hnames : key ∉ names) (name : Option String) :
      Alike (fun own other => own = other)
        (Request.filters ((request.withField key v).field names) name)
        (Request.filters ((request.withField key w).field names) name) := by
    rw [hfield names hnames, hfield names hnames]
    exact Alike.self fun _ _ => rfl
  rcases List.mem_pair.1 hkey with rfl | rfl
  · refine (custom_alike hothers (hread _) (hunread _ (by decide) _)).mono ?_
    rintro plan' plan ⟨edit, video, audio, -, hvideo, -, hsame⟩
    rw [hsame]
    constructor
    · intro hshown
      exact absurd hshown.1 hvideo
    · intro hshows
      exact absurd ⟨hoperation, fun hother => absurd hother (by decide)⟩ hshows
  · refine (custom_alike hothers (hunread _ (by decide) _) (hread _)).mono ?_
    rintro plan' plan ⟨edit, video, audio, hkept, rfl, haudio, hsame⟩
    rw [hsame]
    constructor
    · rintro ⟨-, hshown⟩ ⟨-, hshows⟩
      exact haudio (hshown (hkept.2 (hkeeps.2 (hshows rfl))))
    · intro hshows
      refine ⟨rfl, fun horiginal => absurd ⟨hoperation, fun _ => ?_⟩ hshows⟩
      exact hkeeps.1 (hkept.1 horiginal)

/-- The same for whatever operation the requests name. -/
theorem compile_withField_alike {key : String} (hkey : key ∈ filterKeys) {v w : Value}
    {read read' : List String} (hv : ∀ name, Request.filters v name = .ok read)
    (hw : ∀ name, Request.filters w name = .ok read')
    (hne : read.map (Filter.ofExpression (α := Number)) ≠ read'.map Filter.ofExpression) :
    Alike (fun plan' plan => plan' = plan ↔ ¬ ShowsFilters request key)
      ((c.compile (request.withField key v) probe).result host)
      ((c.compile (request.withField key w) probe).result host) := by
  have hfield (names : List String) (hnames : key ∉ names) (v : Value) :
      (request.withField key v).field names = request.field names :=
    Request.field_withField_of_not_mem hnames
  have hapart : ∀ key ∈ filterKeys, key ∉ ["operation"] := by decide +kernel
  unfold compile draft
  rw [hfield _ (hapart key hkey), hfield _ (hapart key hkey), bind_assoc, bind_assoc]
  refine Action.alike_bind fun operation after hvalue => ?_
  have hoperation : Operation.ofValue (request.field ["operation"]) = .ok operation :=
    (Prod.mk.inj hvalue).1
  by_cases hcustom : operation = .custom
  · subst hcustom
    exact custom_withField_alike hkey hv hw hne hoperation
  · have hagree : Agree (lookups operation) (request.withField key v)
        (request.withField key w) := by
      intro names hnames
      have hunread := filters_not_looked_up hkey hcustom names hnames
      rw [hfield names hunread, hfield names hunread]
    rw [perform_congr hagree]
    refine Alike.self fun plan _ => iff_of_true rfl ?_
    rintro ⟨hother, -⟩
    exact hcustom (Except.ok.inj (hoperation.symm.trans hother))

/-- **Lists that are sent as JSON texts.**  A join with the text of a list of clips is compiled
by the same action as one with the list.  With the text of a list of filters instead of the
list a request fails exactly if it does with the list, and in the same way; but a request that is
compiled to a plan has the same plan exactly if the filters do not show in it. -/
theorem compile_list_text (c : Compiler) (request : Request) (probe : Clip → Action (Option Number))
    {s : String} {list : List String} (h : Json.read s = .ok (.list (list.map .text))) :
    c.compile (request.withField "videos" (.text s)) probe =
        c.compile (request.withField "videos" (.list (list.map .text))) probe ∧
      ∀ key ∈ filterKeys, ∀ host,
        (∀ failure,
          (c.compile (request.withField key (.text s)) probe).result host = .error failure ↔
            (c.compile (request.withField key (.list (list.map .text))) probe).result host =
              .error failure) ∧
        ∀ plan,
          (c.compile (request.withField key (.list (list.map .text))) probe).result host =
            .ok plan →
          ((c.compile (request.withField key (.text s)) probe).result host = .ok plan ↔
            ¬ ShowsFilters request key) := by
  refine ⟨compile_videos_congr fun _ => Request.nameList_of_read h, fun key hkey host => ?_⟩
  obtain ⟨fromText, fromList, htext, hlist, hne⟩ := Request.filters_of_read (α := Number) h
  have halike := @compile_withField_alike c request probe host key hkey _ _ _ _ htext hlist hne
  refine ⟨halike.error_iff, fun plan hplan => ?_⟩
  exact halike.ok_iff hplan

/-- A machine with one clip. -/
def editHost : Host := { files := ⟨[(["a.mp4".toList], .file "" 0)]⟩ }

/-- The request to edit it. -/
def editRequest : Request :=
  [(.text "operation", .text "custom"), (.text "filename", .text "/a.mp4"),
    (.text "output", .text "out.mp4")]

/-- With the text of a list of one filter this edit has another plan than with the list. -/
theorem compile_list_text_edit :
    Json.read "[\"hflip\"]" = .ok (.list (["hflip"].map .text)) ∧
      ∃ plan,
        (Compiler.compile ⟨{}, []⟩ (editRequest.withField "videoFilters"
          (.list (["hflip"].map .text))) fun _ => pure none).result editHost = .ok plan ∧
        (Compiler.compile ⟨{}, []⟩ (editRequest.withField "videoFilters"
          (.text "[\"hflip\"]")) fun _ => pure none).result editHost ≠ .ok plan := by
  have hread : Json.read "[\"hflip\"]" = .ok (.list (["hflip"].map .text)) := by cbv
  have hmade : ((Compiler.compile ⟨{}, []⟩ (editRequest.withField "videoFilters"
      (.list (["hflip"].map .text))) fun _ => pure none).result editHost).toBool = true := by
    decide +kernel
  have hshows : ShowsFilters editRequest "videoFilters" :=
    ⟨rfl, fun hother => absurd hother (by decide)⟩
  obtain ⟨plan, hplan⟩ := Ends.exists_of_toBool hmade
  have hother := ((compile_list_text ⟨{}, []⟩ editRequest (fun _ => pure none) hread).2
    "videoFilters" (by decide) editHost).2 plan hplan
  exact ⟨hread, plan, hplan, fun hsame => hother.1 hsame hshows⟩

end Montage.Compiler
