import Montage.Proofs.Compiler.Inputs
import Montage.Proofs.Compiler.Lookups
import Montage.Proofs.Request.Names

/-!
# Fields with two spellings

Ten fields of a request are written in one of two ways, as `fadeIn` or as `fade_in`.  Nine of
them are looked up under both spellings everywhere (`looked_up_under_both`), so that it does not
matter which one a request uses.  The track that replaces the sound of a custom edit or of a
join is looked up under one: under the other it is not seen, and the plan is the one of a
request without a track (`compile_rename`).
-/

namespace Montage.Compiler

/-- The fields with two spellings. -/
def spellings : List (String × String) :=
  [("resizeMode", "resize_mode"), ("customAudio", "custom_audio"),
    ("videoFilename", "video_filename"), ("videoCodec", "video_codec"),
    ("audioCodec", "audio_codec"), ("videoFilters", "video_filters"),
    ("audioFilters", "audio_filters"), ("fadeIn", "fade_in"), ("fadeOut", "fade_out"),
    ("cleanupAudio", "cleanup_audio")]

/-- A custom edit or a join that names a track. -/
def TakesTrack (request : Request) : Prop :=
  (Operation.ofValue (request.field ["operation"]) = .ok .custom ∨
    Operation.ofValue (request.field ["operation"]) = .ok .stitch) ∧
  (request.field ["customAudio"]).isBlank = false

/-- A field with two spellings is looked up under both of them, unless it is the track. -/
theorem looked_up_under_both (operation : Operation) :
    ∀ spelling ∈ spellings, spelling.1 ≠ "customAudio" → ∀ names ∈ lookups operation,
      names = [spelling.1, spelling.2] ∨ (spelling.1 ∉ names ∧ spelling.2 ∉ names) := by
  cases operation <;> decide +kernel

/-- The track is looked up under one spelling, by custom edits and joins. -/
theorem track_looked_up (operation : Operation) :
    ∀ names ∈ lookups operation,
      (names = ["customAudio"] ∧ (operation = .custom ∨ operation = .stitch)) ∨
        ("customAudio" ∉ names ∧ "custom_audio" ∉ names) := by
  cases operation <;> decide +kernel

variable {c : Compiler} {request : Request} {probe : Clip → Action (Option Number)}

/-- Under the second spelling of any other field a request is the same. -/
theorem compile_rename_of_ne {name second : String} (hspelling : (name, second) ∈ spellings)
    (htrack : name ≠ "customAudio") (hfree : Value.lookup? request (.text second) = none) :
    c.compile (request.rename name second) probe = c.compile request probe := by
  have hne : ∀ spelling ∈ spellings, spelling.1 ≠ spelling.2 ∧ spelling.1 ∉ ["operation"] ∧
      spelling.2 ∉ ["operation"] := by decide +kernel
  obtain ⟨hapart, hname, hsecond⟩ := hne _ hspelling
  refine compile_congr (Request.field_rename_of_not_mem hname hsecond) ?_ probe
  intro operation _ names hnames
  rcases looked_up_under_both operation _ hspelling htrack names hnames with rfl | ⟨hold, hnew⟩
  · exact Request.field_rename hapart hfree
  · exact Request.field_rename_of_not_mem hold hnew

/-- Under its second spelling a track is not there. -/
theorem compile_rename_track :
    c.compile (request.rename "customAudio" "custom_audio") probe =
      c.compile (request.without "customAudio") probe := by
  have hoperation : (request.rename "customAudio" "custom_audio").field ["operation"] =
      (request.without "customAudio").field ["operation"] := by
    rw [Request.field_rename_of_not_mem (by decide) (by decide),
      Request.field_without_of_not_mem (by decide)]
  refine compile_congr hoperation ?_ probe
  intro operation _ names hnames
  rcases track_looked_up operation names hnames with ⟨rfl, -⟩ | ⟨hold, hnew⟩
  · rw [Request.field_rename_self (by decide), Request.field_without_self]
  · rw [Request.field_rename_of_not_mem hold hnew, Request.field_without_of_not_mem hold]

/-- A track that is not named, or that no handler looks for, can be left out. -/
theorem compile_without_track (h : ¬ TakesTrack request) :
    c.compile (request.without "customAudio") probe = c.compile request probe := by
  have hoperation : (request.without "customAudio").field ["operation"] =
      request.field ["operation"] := Request.field_without_of_not_mem (by decide)
  have hother (names : List String) (hnames : "customAudio" ∉ names) :
      (request.without "customAudio").field names = request.field names :=
    Request.field_without_of_not_mem hnames
  have htrack (hblank : (request.field ["customAudio"]).isBlank = true) :
      c.replacement (request.without "customAudio") "customAudio" true =
        c.replacement request "customAudio" true := by
    have hnone : ((request.without "customAudio").field ["customAudio"]).isBlank = true := by
      rw [Request.field_without_self]
      rfl
    rw [replacement_of_blank hnone, replacement_of_blank hblank]
  have hblank (htakes : Operation.ofValue (request.field ["operation"]) = .ok .custom ∨
      Operation.ofValue (request.field ["operation"]) = .ok .stitch) :
      (request.field ["customAudio"]).isBlank = true := by
    cases hgiven : (request.field ["customAudio"]).isBlank with
    | true => rfl
    | false => exact absurd ⟨htakes, hgiven⟩ h
  refine compile_congr_of_perform hoperation ?_ probe
  intro operation hvalue
  cases operation with
  | custom =>
      refine custom_congr (hother _ (by decide)) (hother _ (by decide))
        (htrack (hblank (.inl hvalue))) fun names hnames => hother _ ?_
      have hsettings : ∀ names ∈ settingLookups, "customAudio" ∉ names := by decide +kernel
      exact hsettings names hnames
  | stitch =>
      refine congrArg settled (stitch_congr (by rw [hother _ (by decide)]) (hother _ (by decide))
        (htrack (hblank (.inr hvalue))) fun names hnames => hother _ ?_)
      have hsettings : ∀ names ∈ joinLookups, "customAudio" ∉ names := by decide +kernel
      exact hsettings names hnames
  | convert | speed | mute | addAudio =>
      refine perform_congr fun names hnames => ?_
      rcases track_looked_up _ names hnames with ⟨-, hcustom | hstitch⟩ | ⟨hold, -⟩
      · cases hcustom
      · cases hstitch
      · exact hother names hold

/-- Without its track a request names one clip less. -/
theorem length_sources_without {operation : Operation} (h : TakesTrack request)
    (hoperation : Operation.ofValue (request.field ["operation"]) = .ok operation) :
    (sources (request.without "customAudio") operation).length + 1 =
      (sources request operation).length := by
  obtain ⟨htakes, hgiven⟩ := h
  have hother (names : List String) (hnames : "customAudio" ∉ names) :
      (request.without "customAudio").field names = request.field names :=
    Request.field_without_of_not_mem hnames
  have htrack : trackSource request "customAudio" = [request.field ["customAudio"]] := by
    rw [trackSource, hgiven]
    rfl
  have hnone : trackSource (request.without "customAudio") "customAudio" = [] := by
    rw [trackSource, Request.field_without_self]
    rfl
  rw [hoperation] at htakes
  rcases htakes with hcustom | hstitch
  · cases hcustom
    simp only [sources, htrack, hnone, List.length_cons, List.length_nil]
  · cases hstitch
    have hnames : joinedNames (request.without "customAudio") = joinedNames request := by
      rw [joinedNames, joinedNames, hother _ (by decide)]
    simp only [sources, htrack, hnone, hnames, List.length_append, List.length_cons,
      List.length_nil, Nat.add_zero]

/-- A plan with a track is not the plan of the request without it. -/
theorem compile_without_ne {host : Host} {plan : Plan Number} (h : TakesTrack request)
    (hplan : (c.compile request probe).result host = .ok plan) :
    (c.compile (request.without "customAudio") probe).result host ≠ .ok plan := by
  intro hother
  obtain ⟨operation, draft, hoperation, hdraft, hbecomes⟩ := draft_of_compile hplan
  obtain ⟨operation', draft', hoperation', hdraft', hbecomes'⟩ := draft_of_compile hother
  rw [Request.field_without_of_not_mem (by decide), hoperation] at hoperation'
  obtain rfl := Except.ok.inj hoperation'
  have hlength := length_of_resolveAll (clips_of_perform hdraft hbecomes)
  have hlength' := length_of_resolveAll (clips_of_perform hdraft' hbecomes')
  have hsources := length_sources_without h hoperation
  omega

/-- **The spelling of a field matters for one field alone.**  A field that has a second spelling,
which the request does not use, can be renamed to it, and the request is compiled by the same
action, unless the field is the track.  A track that is renamed is lost: the request is compiled
like the one without it, and a plan that was compiled stays the same exactly if it took no
track. -/
theorem compile_rename (c : Compiler) (request : Request) (probe : Clip → Action (Option Number))
    {name second : String} (hspelling : (name, second) ∈ spellings)
    (hfree : Value.lookup? request (.text second) = none) :
    (name ≠ "customAudio" →
      c.compile (request.rename name second) probe = c.compile request probe) ∧
    (name = "customAudio" →
      c.compile (request.rename name second) probe = c.compile (request.without name) probe ∧
        ∀ host plan, (c.compile request probe).result host = .ok plan →
          ((c.compile (request.rename name second) probe).result host = .ok plan ↔
            ¬ TakesTrack request)) := by
  refine ⟨fun hother => compile_rename_of_ne hspelling hother hfree, ?_⟩
  rintro rfl
  obtain rfl : second = "custom_audio" := by
    have hone : ∀ spelling ∈ spellings, spelling.1 = "customAudio" →
        spelling.2 = "custom_audio" := by decide +kernel
    exact hone _ hspelling rfl
  refine ⟨compile_rename_track, fun host plan hplan => ?_⟩
  rw [compile_rename_track]
  constructor
  · intro hsame htakes
    exact compile_without_ne htakes hplan hsame
  · intro hfree
    rw [compile_without_track hfree, hplan]

/-- A machine with two clips and a track. -/
def trackHost : Host :=
  { files := ⟨[(["a.mp4".toList], .file "" 0), (["b.mp4".toList], .file "" 0),
      (["c.mp3".toList], .file "" 0)]⟩ }

/-- The request to join the clips over the track. -/
def trackRequest : Request :=
  [(.text "operation", .text "stitch"),
    (.text "videos", .list [.text "/a.mp4", .text "/b.mp4"]),
    (.text "customAudio", .text "/c.mp3"), (.text "output", .text "out.mp4")]

/-- Under its second spelling the track of this request is lost, while a mode that is not there
can be renamed. -/
theorem compile_rename_join :
    (∃ plan, (Compiler.compile ⟨{}, []⟩ trackRequest fun _ => pure none).result trackHost =
        .ok plan ∧
      (Compiler.compile ⟨{}, []⟩ (trackRequest.rename "customAudio" "custom_audio")
        fun _ => pure none).result trackHost ≠ .ok plan) ∧
    Compiler.compile ⟨{}, []⟩ (trackRequest.rename "resizeMode" "resize_mode")
        (fun _ => pure none) =
      Compiler.compile ⟨{}, []⟩ trackRequest fun _ => pure none := by
  have hmade : ((Compiler.compile ⟨{}, []⟩ trackRequest fun _ => pure none).result
      trackHost).toBool = true := by decide +kernel
  have hfree : Value.lookup? trackRequest (.text "custom_audio") = none := by decide +kernel
  have hmode : Value.lookup? trackRequest (.text "resize_mode") = none := by decide +kernel
  have htakes : TakesTrack trackRequest := ⟨.inr rfl, rfl⟩
  refine ⟨?_, (compile_rename _ _ _ (by decide +kernel) hmode).1 (by decide)⟩
  obtain ⟨plan, hplan⟩ := Ends.exists_of_toBool hmade
  have hlost := ((compile_rename ⟨{}, []⟩ trackRequest (fun _ => pure none)
    (by decide +kernel) hfree).2 rfl).2 trackHost plan hplan
  exact ⟨plan, hplan, fun hsame => hlost.1 hsame htakes⟩

end Montage.Compiler
