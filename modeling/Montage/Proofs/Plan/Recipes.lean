import Montage.Plan.Recipes
import Montage.Proofs.Plan.Closed

/-!
# The plans of one clip

The planners of a single clip draw graphs of one shape: at most one chain from the
video of the source to the label of the video, and at most one from its sound to the
label of the sound (`sourceChains`).  The builder takes every such graph, and with it
the fixed recipes come out as closed plans.
-/

namespace Montage.Plan

variable {α : Type}

/-- The label of a result of the given kind. -/
def labelOf : Stream → String
  | .video => videoLabel
  | .audio => audioLabel

/-- A chain from one stream of the source to the result of its kind. -/
def sourceChain (stream : Stream) (filters : List (Filter α)) : Node α :=
  ⟨[Label.raw 0 stream], filters, [labelOf stream]⟩

/-- That chain, or none if there is no filter. -/
def sourceChains (stream : Stream) (filters : List (Filter α)) : List (Node α) :=
  if filters.isEmpty then [] else [sourceChain stream filters]

/-- The result of that chain, if there is a filter. -/
def sourceResult (stream : Stream) (filters : List (Filter α)) : Option String :=
  if filters.isEmpty then none else some (labelOf stream)

theorem eq_labelOf_of_sourceResult {stream : Stream} {filters : List (Filter α)} {label : String}
    (h : sourceResult stream filters = some label) : label = labelOf stream := by
  unfold sourceResult at h
  split at h
  · cases h
  · exact (Option.some.inj h).symm

theorem isRaw_labelOf (stream : Stream) : Label.isRaw (labelOf stream) = false := by
  cases stream <;> decide

theorem labelOf_ne : labelOf .video ≠ labelOf .audio := by decide

theorem links_raw (n : Nat) (stream : Stream) : Label.links [Label.raw n stream] = [] := by
  rw [Label.links_cons_of_raw (Label.isRaw_raw n stream)]
  rfl

theorem produced_sourceChains (stream : Stream) (filters : List (Filter α)) :
    Graph.produced (sourceChains stream filters) = (sourceResult stream filters).toList := by
  unfold sourceChains sourceResult
  cases filters.isEmpty <;> rfl

theorem consumed_sourceChains (stream : Stream) (filters : List (Filter α)) :
    Graph.consumed (sourceChains stream filters) = [] := by
  unfold sourceChains
  cases filters.isEmpty with
  | true => rfl
  | false => exact links_raw 0 stream

/-- A chain from the source fits behind all chains that do not produce its label. -/
theorem fits_sourceChain {chains : List (Node α)} {stream : Stream} {filters : List (Filter α)}
    (hfilters : filters ≠ []) (hnew : labelOf stream ∉ Graph.produced chains) :
    Graph.Fits chains (sourceChain stream filters) where
  hasFilter := hfilters
  unread label hlabel := by
    have hnone : Label.links (sourceChain stream filters).inputs = [] := links_raw 0 stream
    simp [hnone] at hlabel
  distinct := by
    have hnone : Label.links (sourceChain stream filters).inputs = [] := links_raw 0 stream
    simp [hnone]
  new label hlabel := by
    obtain rfl : label = labelOf stream := by simpa [sourceChain] using hlabel
    exact ⟨hnew, isRaw_labelOf stream⟩
  nodup := by simp [sourceChain]

/-- The builder takes a chain from the source. -/
theorem chain_sourceChain (chains : List (Node α)) (stream : Stream) {filters : List (Filter α)}
    (hfilters : filters ≠ []) (hnew : labelOf stream ∉ Graph.produced chains) :
    (Builder.noted chains).chain [Label.raw 0 stream] filters [labelOf stream] =
      .ok (Builder.noted (chains ++ sourceChains stream filters)) := by
  have hchains : sourceChains stream filters = [sourceChain stream filters] := by
    simp [sourceChains, hfilters]
  rw [hchains]
  exact (Builder.chain_noted chains (sourceChain stream filters) _).2
    ⟨fits_sourceChain hfilters hnew, rfl⟩

theorem linked_sourceChains {chains : List (Node α)} {stream : Stream} (filters : List (Filter α))
    (h : Graph.Linked chains) (hnew : labelOf stream ∉ Graph.produced chains) :
    Graph.Linked (chains ++ sourceChains stream filters) := by
  by_cases hfilters : filters = []
  · simpa [sourceChains, hfilters] using h
  · have hchains : sourceChains stream filters = [sourceChain stream filters] := by
      simp [sourceChains, hfilters]
    rw [hchains]
    exact (Graph.linked_concat_iff _ _).2 ⟨h, fits_sourceChain hfilters hnew⟩

theorem labelOf_audio_not_mem (video : List (Filter α)) :
    labelOf .audio ∉ Graph.produced (sourceChains .video video) := by
  rw [produced_sourceChains, Option.mem_toList, sourceResult]
  split
  · simp
  · simpa using labelOf_ne

/-- The builder accepts the graph of a source with the results of its chains. -/
theorem build_sourceChains (video audio : List (Filter α)) (h : video ≠ [] ∨ audio ≠ []) :
    (Builder.noted (sourceChains .video video ++ sourceChains .audio audio)).build
        (sourceResult .video video) (sourceResult .audio audio) =
      .ok ⟨sourceChains .video video ++ sourceChains .audio audio, sourceResult .video video,
        sourceResult .audio audio⟩ := by
  rw [Builder.build_eq_ok_iff]
  refine ⟨?_, fun label => ?_, rfl⟩
  · rcases h with h | h
    · simp [Builder.noted, sourceChains, h]
    · simp [Builder.noted, sourceChains, h]
  · rw [Builder.mem_terminals]
    simp [Builder.noted, Graph.produced_append, Graph.consumed_append, produced_sourceChains,
      consumed_sourceChains]

/-- The graph of a source is well-formed. -/
theorem wellFormed_sourceChains (video audio : List (Filter α)) (h : video ≠ [] ∨ audio ≠ []) :
    Graph.WellFormed (sourceChains .video video ++ sourceChains .audio audio)
      (sourceResult .video video) (sourceResult .audio audio) := by
  have hvideo : Graph.Linked ([] ++ sourceChains .video video) :=
    linked_sourceChains video Graph.linked_nil (by simp [Graph.produced])
  have hlinked := linked_sourceChains audio hvideo (labelOf_audio_not_mem video)
  exact ((hlinked.build_noted_iff _ _ _).1 (build_sourceChains video audio h)).1

/-- The graph of a source: none if there is no filter. -/
def sourceGraph (video audio : List (Filter α)) : Option (Graph α) :=
  if video.isEmpty && audio.isEmpty then none
  else
    some ⟨sourceChains .video video ++ sourceChains .audio audio, sourceResult .video video,
      sourceResult .audio audio⟩

theorem resultOf_sourceGraph_video (video audio : List (Filter α)) :
    resultOf (sourceGraph video audio) .video = sourceResult .video video := by
  cases video <;> cases audio <;> rfl

theorem resultOf_sourceGraph_audio (video audio : List (Filter α)) :
    resultOf (sourceGraph video audio) .audio = sourceResult .audio audio := by
  cases video <;> cases audio <;> rfl

/-- All that the chains of a source read is the source, which is the first input. -/
theorem numbered_sourceGraph (video audio : List (Filter α)) :
    Numbered 1 (reads (sourceGraph video audio)) := by
  have hreads : ∀ label ∈ reads (sourceGraph video audio),
      ∃ stream, label = Label.raw 0 stream := by
    cases video <;> cases audio <;>
      simp [reads, sourceGraph, sourceChains, sourceChain, or_imp, forall_and]
  intro label hlabel _
  obtain ⟨stream, rfl⟩ := hreads label hlabel
  exact ⟨0, stream, rfl, Nat.one_pos⟩

/-- Parts around the graph of a source are wired if the maps and the loops are. -/
theorem wired_sourceGraph {inputs : List Input} {maps : List StreamMap}
    {options : OutputOptions α} (video audio : List (Filter α)) (hinputs : inputs ≠ [])
    (hchosen : ChoosesAll inputs.length (sourceGraph video audio) maps)
    (hbounded : ∀ input ∈ inputs, input.loop.isSome = true →
      options.shortest = true ∨ options.duration.isSome = true) :
    Wired inputs (sourceGraph video audio) maps options where
  someInput := hinputs
  wellFormed g hg := by
    unfold sourceGraph at hg
    split at hg
    · cases hg
    · next hsome =>
        cases hg
        refine wellFormed_sourceChains video audio ?_
        by_contra hnone
        exact hsome (by simpa [not_or] using hnone)
  apart label hvideo haudio := by
    rw [resultOf_sourceGraph_video] at hvideo
    rw [resultOf_sourceGraph_audio] at haudio
    exact labelOf_ne ((eq_labelOf_of_sourceResult hvideo).symm.trans
      (eq_labelOf_of_sourceResult haudio))
  chosen := hchosen
  bounded := hbounded

theorem wired_sourceless {inputs : List Input} {maps : List StreamMap} {options : OutputOptions α}
    (hinputs : inputs ≠ []) (hchosen : ChoosesAll inputs.length (none : Option (Graph α)) maps)
    (hbounded : ∀ input ∈ inputs, input.loop.isSome = true →
      options.shortest = true ∨ options.duration.isSome = true) :
    Wired inputs none maps options :=
  wired_sourceGraph [] [] hinputs hchosen hbounded

/-- The builder takes the chain that changes the times of the video. -/
theorem chain_timing (timing : Filter α) :
    Builder.empty.chain [Label.raw 0 .video] [timing] [videoLabel] =
      .ok (Builder.noted (sourceChains .video [timing])) :=
  chain_sourceChain [] .video (List.cons_ne_nil timing []) (by simp [Graph.produced])

/-- The maps of a change of speed: without stages the sound stays as it is. -/
def speedMaps (tempo : List (Filter α)) : List StreamMap :=
  [.ofLabel videoLabel,
    if tempo.isEmpty then .ofStream 0 .audio none true else .ofLabel audioLabel]

theorem chosen_speedMaps (timing : Filter α) (tempo : List (Filter α)) :
    ChoosesAll 1 (sourceGraph [timing] tempo) (speedMaps tempo) := by
  have haudio := resultOf_sourceGraph_audio [timing] tempo
  refine .both (.result _ (resultOf_sourceGraph_video [timing] tempo)) ?_
  cases tempo with
  | nil => exact .source 0 _ _ haudio Nat.one_pos
  | cons => exact .result _ haudio

variable [Arithmetic α]

theorem convert_ends (clip : Clip) (target format : String) :
    Ends Closed (Rejection 1) (convert (α := α) clip target format) :=
  (wired_sourceless (by simp) (.nothing rfl) (by simp)).assemble_ends (numbered_sourceGraph [] [])
    (by simp) target none

theorem mute_ends (clip : Clip) (target : String) :
    Ends Closed (Rejection 1) (mute (α := α) clip target) :=
  (wired_sourceless (by simp) (.nothing rfl) (by simp)).assemble_ends (numbered_sourceGraph [] [])
    (by simp) target none

theorem replaceSound_ends (clip sound : Clip) (loop temporary : Bool) (target : String) :
    Ends Closed (Rejection 1) (replaceSound (α := α) clip sound loop temporary target) := by
  refine (wired_sourceless (by simp) (.both ?_ ?_) (by simp)).assemble_ends
    (numbered_sourceGraph [] []) (by simp) target none
  · exact .source 0 _ _ rfl (by simp)
  · exact .source 1 _ _ rfl (by simp)

/-- The failures of a speed: it is refused, or it passes and has no stages. -/
def SpeedFails (ratio : α) (failure : Failure) : Prop :=
  Tempo.check ratio = .error failure ∨
    (Tempo.check ratio = .ok () ∧ Tempo.stages ratio = .error failure)

theorem SpeedFails.isCheck_eq_false {ratio : α} {failure : Failure} (h : SpeedFails ratio failure) :
    failure.isCheck = false := by
  rcases h with h | ⟨-, h⟩
  · unfold Tempo.check at h
    split at h
    · cases h
      rfl
    · split at h
      · cases h
        rfl
      · cases h
  · unfold Tempo.stages at h
    split at h
    · cases h
    · cases h
      rfl

theorem check_ends (ratio : α) :
    Ends (fun _ => Tempo.check ratio = .ok ()) (SpeedFails ratio) (Tempo.check ratio) := by
  cases h : Tempo.check ratio with
  | ok => rfl
  | error failure => exact .inl h

theorem timeFilter_ends (ratio : α) :
    Ends (fun _ => True) (SpeedFails ratio) (Tempo.timeFilter ratio) :=
  (check_ends ratio).bind fun _ _ => trivial

theorem tempo_ends (ratio : α) : Ends (fun _ => True) (SpeedFails ratio) (Tempo.filters ratio) := by
  refine (check_ends ratio).bind fun _ hcheck => ?_
  cases h : Tempo.stages ratio with
  | ok stages => trivial
  | error failure => exact .inr ⟨hcheck, h⟩

/-- What a change of speed hands to the assembler: the builder takes its one chain, or
two if the sound needs a tempo. -/
theorem changeSpeed_eq (clip : Clip) (ratio : α) (target : String) :
    changeSpeed clip ratio target = (do
      let timing ← Tempo.timeFilter ratio
      let tempo ← Tempo.filters ratio
      assemble [{ clip }] (sourceGraph [timing] tempo) (speedMaps tempo) {} target none) := by
  unfold changeSpeed
  refine bind_congr fun timing => ?_
  refine (Ends.mapError_bind (chain_timing timing)).trans (bind_congr fun tempo => ?_)
  have hgraph := build_sourceChains [timing] tempo (.inl (by simp))
  -- A ratio of one has no stages, and the sound stays as it is.
  by_cases hstages : tempo = []
  · subst hstages
    exact Ends.mapError_bind hgraph
  · have hsound := chain_sourceChain _ .audio hstages (labelOf_audio_not_mem [timing])
    have hsome : tempo.isEmpty = false := by simpa using hstages
    have hresult : sourceResult .audio tempo = some audioLabel := by
      rw [sourceResult, hsome]
      rfl
    rw [hresult] at hgraph
    rw [if_neg (by simp [hsome])]
    refine (Ends.mapError_bind hsound).trans ((Ends.mapError_bind hgraph).trans ?_)
    simp only [speedMaps, sourceGraph, hsome, hresult]
    rfl

/-- A change of speed comes out as a closed plan. -/
theorem changeSpeed_ends (clip : Clip) (ratio : α) (target : String) :
    Ends Closed (fun failure => Rejection 1 failure ∨ SpeedFails ratio failure)
      (changeSpeed clip ratio target) := by
  rw [changeSpeed_eq]
  refine ((timeFilter_ends ratio).mono (fun _ h => h) fun _ => .inr).bind fun timing _ => ?_
  refine ((tempo_ends ratio).mono (fun _ h => h) fun _ => .inr).bind fun tempo _ => ?_
  have hwired : Wired [{ clip }] (sourceGraph [timing] tempo) (speedMaps tempo) {} :=
    wired_sourceGraph [timing] tempo (by simp) (chosen_speedMaps timing tempo) (by simp)
  exact (hwired.assemble_ends (numbered_sourceGraph [timing] tempo) (by simp) target none).mono
    (fun _ h => h) fun _ => .inl

end Montage.Plan
