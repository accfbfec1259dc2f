import Montage.Proofs.Compiler.Plans
import Montage.Proofs.Resolver

/-!
# Where the inputs of a plan come from

Every operation has its sources: the values of the request that name clips, in the order
of the inputs.  The inputs of a compiled plan are what the resolver makes of the sources
(`clips_of_perform`), so each is a file that stands for one of their names.
-/

namespace Montage.Compiler

/-- The value that names the replacing track, if there is one. -/
def trackSource (request : Request) (key : String) : List Value :=
  if (request.field [key]).isBlank then [] else [request.field [key]]

/-- The values of a request that name clips, in the order of the inputs. -/
def sources (request : Request) : Operation → List Value
  | .convert | .speed | .mute => [request.field ["filename"]]
  | .addAudio =>
    [request.field ["videoFilename", "video_filename"], request.field ["audio"]]
  | .custom => request.field ["filename"] :: trackSource request "customAudio"
  | .stitch => (joinedNames request).map .text ++ trackSource request "customAudio"

section

variable {c : Compiler} {request : Request} {host : Host} {directories : List String}

theorem resolveAll_cons {v : Value} {rest : List Value} {clip : Clip} {clips : List Clip}
    (h : Resolver.resolve host directories v = .ok clip)
    (hrest : Resolver.resolveAll host directories rest = .ok clips) :
    Resolver.resolveAll host directories (v :: rest) = .ok (clip :: clips) := by
  rw [Resolver.resolveAll, h]
  change Resolver.resolveAll host directories rest >>= _ = _
  rw [hrest]
  rfl

theorem resolveAll_append {first second : List Value} {clips others : List Clip}
    (h : Resolver.resolveAll host directories first = .ok clips)
    (hsecond : Resolver.resolveAll host directories second = .ok others) :
    Resolver.resolveAll host directories (first ++ second) = .ok (clips ++ others) := by
  induction first generalizing clips with
  | nil =>
      cases h
      exact hsecond
  | cons v rest ih =>
      obtain ⟨clip, hclip, h⟩ := Ends.of_bind_ok h
      obtain ⟨tail, hrest, h⟩ := Ends.of_bind_ok h
      cases h
      exact resolveAll_cons hclip (ih hrest)

/-- Every clip of several is the one of some value. -/
theorem exists_of_resolveAll {values : List Value} {clips : List Clip} {clip : Clip}
    (h : Resolver.resolveAll host directories values = .ok clips) (hclip : clip ∈ clips) :
    ∃ v ∈ values, Resolver.resolve host directories v = .ok clip := by
  induction values generalizing clips with
  | nil =>
      cases h
      cases hclip
  | cons v rest ih =>
      obtain ⟨first, hfirst, h⟩ := Ends.of_bind_ok h
      obtain ⟨others, hothers, h⟩ := Ends.of_bind_ok h
      cases h
      rcases List.mem_cons.1 hclip with rfl | hclip
      · exact ⟨v, by simp, hfirst⟩
      · obtain ⟨w, hw, hresolved⟩ := ih hothers hclip
        exact ⟨w, List.mem_cons_of_mem v hw, hresolved⟩

/-- The replacing track is what its field names. -/
theorem Replaces.resolveAll {key : String} {loop mute : Bool} {sound : Option Sound}
    (h : Replaces c request host key loop sound) :
    Resolver.resolveAll host c.directories (trackSource request key) =
      .ok (chooseSound sound mute).tracks := by
  unfold trackSource
  rcases h with ⟨hblank, rfl⟩ | ⟨hgiven, track, temporary, htrack, -, rfl⟩
  · rw [if_pos hblank]
    cases mute <;> rfl
  · rw [hgiven]
    exact resolveAll_cons htrack rfl

/-- **The inputs of an operation are its sources**, resolved in order. -/
theorem clips_of_perform {operation : Operation} {draft : Draft Number} {plan : Plan Number}
    (h : (c.perform request operation).result host = .ok draft) (hplan : draft.Becomes plan) :
    Resolver.resolveAll host c.directories (sources request operation) = .ok plan.clips := by
  cases made_of_perform h hplan with
  | convert hclip => exact resolveAll_cons hclip rfl
  | speed hclip => exact resolveAll_cons hclip rfl
  | mute hclip => exact resolveAll_cons hclip rfl
  | addAudio hclip htrack => exact resolveAll_cons hclip (resolveAll_cons htrack rfl)
  | custom hclip hsound hedit =>
      obtain ⟨mute, speed, fadeOut, hmute, -⟩ := of_readEdit hedit
      rw [Plan.clips, Edit.clips_inputs, hmute]
      exact resolveAll_cons hclip hsound.resolveAll
  | stitch hclips _ hsound =>
      rw [Plan.clips, Plan.clips_joinInputs]
      exact resolveAll_append hclips hsound.resolveAll

/-- **Every input is a file that a name of the request stands for.**  It is the file of
an absolute name, or the first file of that name in the directories, none of which the
name leaves up to there.  And in directories that can be compared a relative name is
refused exactly if it is lost. -/
theorem compile_inputs (c : Compiler) (request : Request) (host : Host) :
    (∀ probe plan, (c.compile request probe).result host = .ok plan →
      ∀ input ∈ plan.inputs, ∃ operation name,
        Operation.ofValue (request.field ["operation"]) = .ok operation ∧
          .text name ∈ sources request operation ∧
          Resolver.Stands host c.directories name input.clip) ∧
    (Resolver.Comparable host c.directories → ∀ name : String,
      Path.isAbsolute name.toList = false → Text.isBlankText name = false →
      FileTree.Clean name.toList →
      ((∃ cause, Resolver.resolve host c.directories (.text name) =
          .error (.resolution name cause)) ↔
        Resolver.Lost host c.directories name)) := by
  constructor
  · intro probe plan h input hinput
    obtain ⟨operation, draft, hoperation, hdraft, hplan⟩ := draft_of_compile h
    have hclips := clips_of_perform hdraft hplan
    have hclip : input.clip ∈ plan.clips := List.mem_map_of_mem hinput
    obtain ⟨v, hv, hresolved⟩ := exists_of_resolveAll hclips hclip
    obtain ⟨name, rfl, hstands⟩ := Resolver.stands_of_resolve hresolved
    exact ⟨operation, name, hoperation, hv, hstands⟩
  · intro hcomparable name hrelative hnamed hclean
    rw [← Resolver.search_fails_iff hcomparable hclean, Resolver.resolve, Resolver.resolveName,
      hnamed, hrelative]
    rfl

/-- A machine with one clip among the uploads. -/
def uploadHost : Host :=
  { files := ⟨[(["work".toList], .directory), (["work".toList, "uploads".toList], .directory),
      (["work".toList, "uploads".toList, "a.mp4".toList], .file "" 0)]⟩ }

/-- The request to mute that clip. -/
def muteUpload : Request :=
  [(.text "operation", .text "mute"), (.text "filename", .text "a.mp4"),
    (.text "output", .text "out.mp4")]

theorem compile_inputs_upload :
    (∃ operation name,
      Operation.ofValue (Request.field muteUpload ["operation"]) = .ok operation ∧
        .text name ∈ sources muteUpload operation ∧
        Resolver.Stands uploadHost ["uploads"] name ⟨"a.mp4", "uploads/a.mp4"⟩) ∧
    ((∃ cause, Resolver.resolve uploadHost ["uploads"] (.text "../b.mp4") =
        .error (.resolution "../b.mp4" cause)) ↔
      Resolver.Lost uploadHost ["uploads"] "../b.mp4") := by
  obtain ⟨hinputs, hfails⟩ := compile_inputs ⟨{}, ["uploads"]⟩ muteUpload uploadHost
  have hcomparable : Resolver.Comparable uploadHost ["uploads"] := by
    refine ⟨?_, ?_, ?_⟩
    · intro place target hlink
      simp [uploadHost] at hlink
    · intro d hd
      obtain rfl := List.mem_singleton.1 hd
      rfl
    · intro d hd rest hreal
      obtain rfl := List.mem_singleton.1 hd
      have hplain : uploadHost.realPath "uploads" = .ok "/work/uploads".toList := rfl
      cases hplain.symm.trans hreal
  refine ⟨?_, hfails hcomparable _ (by decide) (by decide) rfl⟩
  let clip : Clip := ⟨"a.mp4", "uploads/a.mp4"⟩
  exact hinputs (fun _ => pure none)
    ⟨[{ clip }], none, [], { noAudio := true }, "out.mp4", none⟩ rfl { clip } (by simp)

end

end Montage.Compiler
