import Montage.Plan.Join
import Montage.Proofs.Plan.Recipes

/-!
# The plans of joined clips

Any number of clips is joined by one graph: a chain for the video of every clip, unless
the clips keep their size, and the chain that plays all of them one after another.  The
walk over the clips keeps an invariant, that the builder holds the notes of the chains
of the clips seen so far and that these fit together (`routeClips_noted`).  The last
chain reads every label the walk returned, so nothing is left over but the results.
-/

namespace Montage.Plan

variable {α : Type}

/-- The chain of the video of one clip; none without filters. -/
def clipChain (filters : List (Filter α)) (n : Nat) : List (Node α) :=
  if filters.isEmpty then [] else [⟨[Label.raw n .video], filters, [Label.clipVideo n]⟩]

/-- The chains of `count` clips, from number `index` on. -/
def clipChains (filters : List (Filter α)) (index count : Nat) : List (Node α) :=
  (List.range' index count).flatMap (clipChain filters)

/-- The labels under which one clip is joined: its video, and its sound if that is
kept. -/
def clipLabels (filters : List (Filter α)) (sound : Bool) (n : Nat) : List String :=
  (if filters.isEmpty then Label.raw n .video else Label.clipVideo n) ::
    if sound then [Label.raw n .audio] else []

/-- The labels of `count` clips, from number `index` on. -/
def joinedLabels (filters : List (Filter α)) (sound : Bool) (index count : Nat) : List String :=
  (List.range' index count).flatMap (clipLabels filters sound)

theorem clipChains_succ (filters : List (Filter α)) (index count : Nat) :
    clipChains filters index (count + 1) =
      clipChain filters index ++ clipChains filters (index + 1) count := by
  simp [clipChains, List.range'_succ]

theorem joinedLabels_succ (filters : List (Filter α)) (sound : Bool) (index count : Nat) :
    joinedLabels filters sound index (count + 1) =
      clipLabels filters sound index ++ joinedLabels filters sound (index + 1) count := by
  simp [joinedLabels, List.range'_succ]

theorem mem_produced_clipChain {filters : List (Filter α)} {n : Nat} {label : String}
    (h : label ∈ Graph.produced (clipChain filters n)) : label = Label.clipVideo n := by
  unfold clipChain at h
  split at h
  · simp [Graph.produced] at h
  · simpa [Graph.produced] using h

theorem consumed_clipChain (filters : List (Filter α)) (n : Nat) :
    Graph.consumed (clipChain filters n) = [] := by
  unfold clipChain
  split
  · rfl
  · exact links_raw n .video

/-- The links among the labels of a clip are what its chain produces. -/
theorem links_clipLabels (filters : List (Filter α)) (sound : Bool) (n : Nat) :
    Label.links (clipLabels filters sound n) = Graph.produced (clipChain filters n) := by
  have hsound : Label.links (if sound then [Label.raw n .audio] else []) = [] := by
    cases sound with
    | true => exact links_raw n .audio
    | false => rfl
  unfold clipLabels clipChain
  cases filters.isEmpty with
  | true =>
      rw [if_pos rfl, Label.links_cons_of_raw (Label.isRaw_raw n .video), hsound]
      rfl
  | false =>
      simp only [Bool.false_eq_true, if_false, hsound,
        Label.links_cons_of_not_raw (Label.isRaw_clipVideo n)]
      rfl

/-- All labels that chains of clips produce are those of the clips. -/
theorem mem_produced_clipChains {filters : List (Filter α)} {index count : Nat} {label : String}
    (h : label ∈ Graph.produced (clipChains filters index count)) :
    ∃ n, index ≤ n ∧ label = Label.clipVideo n := by
  induction count generalizing index with
  | zero => simp [clipChains, Graph.produced] at h
  | succ count ih =>
      rw [clipChains_succ, Graph.produced_append, List.mem_append] at h
      rcases h with h | h
      · exact ⟨index, Nat.le_refl index, mem_produced_clipChain h⟩
      · obtain ⟨n, hn, rfl⟩ := ih h
        exact ⟨n, Nat.le_of_succ_le hn, rfl⟩

theorem consumed_clipChains (filters : List (Filter α)) (index count : Nat) :
    Graph.consumed (clipChains filters index count) = [] := by
  induction count generalizing index with
  | zero => rfl
  | succ count ih =>
      rw [clipChains_succ, Graph.consumed_append, consumed_clipChain, ih, List.append_nil]

/-- The links that are joined are exactly what the chains of the clips produce. -/
theorem links_joinedLabels (filters : List (Filter α)) (sound : Bool) (index count : Nat) :
    Label.links (joinedLabels filters sound index count) =
      Graph.produced (clipChains filters index count) := by
  induction count generalizing index with
  | zero => rfl
  | succ count ih =>
      rw [joinedLabels_succ, clipChains_succ, Label.links_append, Graph.produced_append,
        links_clipLabels, ih]

/-- One clip: its chain fits behind chains that do not produce its label, and the
builder takes it. -/
theorem addClipVideo_noted {chains : List (Node α)} (filters : List (Filter α)) {n : Nat}
    (h : Graph.Linked chains) (hnew : Label.clipVideo n ∉ Graph.produced chains) :
    Graph.Linked (chains ++ clipChain filters n) ∧
      (Builder.noted chains).addClipVideo n filters =
        (Builder.noted (chains ++ clipChain filters n),
          .ok (if filters.isEmpty then Label.raw n .video else Label.clipVideo n)) := by
  by_cases hfilters : filters = []
  · simpa [clipChain, Builder.addClipVideo, hfilters] using h
  · -- The chain reads no link, so that only its own label has to be new.
    let node : Node α := ⟨[Label.raw n .video], filters, [Label.clipVideo n]⟩
    have hnode : clipChain filters n = [node] := by simp [clipChain, hfilters, node]
    have hlinks : Label.links node.inputs = [] := links_raw n .video
    have hfits : Graph.Fits chains node := by
      refine ⟨hfilters, by simp [hlinks], by simp [hlinks], ?_, by simp [node]⟩
      intro label hlabel
      obtain rfl : label = Label.clipVideo n := by simpa [node] using hlabel
      exact ⟨hnew, Label.isRaw_clipVideo n⟩
    have hchain := (Builder.chain_noted chains node _).2 ⟨hfits, rfl⟩
    obtain ⟨taken, hadd⟩ := Builder.addChain_of_chain hchain
    rw [hnode]
    refine ⟨(Graph.linked_concat_iff chains node).2 ⟨h, hfits⟩, ?_⟩
    simp only [node] at hadd
    simp [Builder.addClipVideo, hfilters, hadd, node]

/-- The walk over the clips.  It keeps the invariant that the builder holds the notes of
chains that fit together, and returns the labels of the clips in order. -/
theorem routeClips_noted (filters : List (Filter α)) (sound : Bool) (count index : Nat)
    (chains : List (Node α)) (h : Graph.Linked chains)
    (hnew : ∀ n, index ≤ n → Label.clipVideo n ∉ Graph.produced chains) :
    Graph.Linked (chains ++ clipChains filters index count) ∧
      routeClips filters sound count index (Builder.noted chains) =
        .ok (Builder.noted (chains ++ clipChains filters index count),
          joinedLabels filters sound index count) := by
  induction count generalizing index chains with
  | zero => simpa [clipChains, joinedLabels, routeClips] using h
  | succ count ih =>
      obtain ⟨hlinked, hadd⟩ := addClipVideo_noted filters h (hnew index (Nat.le_refl index))
      -- The invariant for the next clip: what this clip produced is not its label.
      have hlater : ∀ n, index + 1 ≤ n →
          Label.clipVideo n ∉ Graph.produced (chains ++ clipChain filters index) := by
        intro n hn hmem
        rw [Graph.produced_append, List.mem_append] at hmem
        rcases hmem with hmem | hmem
        · exact hnew n (Nat.le_of_succ_le hn) hmem
        · have := Label.clipVideo_injective (mem_produced_clipChain hmem)
          omega
      obtain ⟨hall, hroute⟩ := ih (index + 1) _ hlinked hlater
      rw [List.append_assoc, ← clipChains_succ] at hall hroute
      refine ⟨hall, ?_⟩
      simp [routeClips, hadd, hroute, joinedLabels_succ, clipLabels]

/-- The results of a join: the video, and the sound if it is kept. -/
def joinedResults (sound : Bool) : List String :=
  if sound then [videoLabel, audioLabel] else [videoLabel]

theorem mem_joinedResults {sound : Bool} {label : String} :
    label ∈ joinedResults sound ↔
      some videoLabel = some label ∨ (if sound then some audioLabel else none) = some label := by
  cases sound <;> simp [joinedResults, eq_comm]

/-- No clip has the label of a result. -/
theorem clipVideo_not_mem_joinedResults (sound : Bool) (n : Nat) :
    Label.clipVideo n ∉ joinedResults sound := by
  have hvideo : Label.clipVideo n ≠ videoLabel := Label.clipVideo_ne n (by decide)
  have haudio : Label.clipVideo n ≠ audioLabel := Label.clipVideo_ne n (by decide)
  cases sound <;> simp [joinedResults, hvideo, haudio]

variable [Arithmetic α]

/-- The chain that plays the clips one after another. -/
def joinChain (filters : List (Filter α)) (sound : Bool) (count : Nat) : Node α :=
  ⟨joinedLabels filters sound 0 count, [concatFilter count sound], joinedResults sound⟩

/-- The chain that plays the clips fits behind the chains of the clips. -/
theorem fits_joinChain {filters : List (Filter α)} {count : Nat} (sound : Bool)
    (h : Graph.Linked (clipChains filters 0 count)) :
    Graph.Fits (clipChains filters 0 count) (joinChain filters sound count) where
  hasFilter := by simp [joinChain]
  unread label hlabel := by
    rw [joinChain, links_joinedLabels] at hlabel
    exact ⟨hlabel, by simp [consumed_clipChains]⟩
  distinct := by
    rw [joinChain, links_joinedLabels]
    exact h.producedOnce
  new label hlabel := by
    refine ⟨fun hmem => ?_, ?_⟩
    · obtain ⟨n, -, rfl⟩ := mem_produced_clipChains hmem
      exact clipVideo_not_mem_joinedResults sound n hlabel
    · rcases mem_joinedResults.1 hlabel with hlabel | hlabel
      · cases hlabel
        exact isRaw_labelOf .video
      · cases sound
        · cases hlabel
        · cases hlabel
          exact isRaw_labelOf .audio
  nodup := by
    change (joinedResults sound).Nodup
    cases sound <;> decide

/-- The graph of a join. -/
def joinGraph (filters : List (Filter α)) (sound : Bool) (count : Nat) : Graph α :=
  ⟨clipChains filters 0 count ++ [joinChain filters sound count], some videoLabel,
    if sound then some audioLabel else none⟩

/-- The labels of the clips are all read by the last chain, so the results are what is
left. -/
theorem build_joinGraph {filters : List (Filter α)} {count : Nat} (sound : Bool)
    (h : Graph.Linked (clipChains filters 0 count)) :
    (Builder.noted (joinGraph filters sound count).nodes).build (some videoLabel)
        (if sound then some audioLabel else none) = .ok (joinGraph filters sound count) := by
  rw [Builder.build_eq_ok_iff]
  refine ⟨by simp [Builder.noted, joinGraph], fun label => ?_, rfl⟩
  rw [Builder.mem_terminals, ← mem_joinedResults]
  simp only [Builder.noted, joinGraph, Graph.produced_append, Graph.consumed_append,
    Graph.produced_singleton, Graph.consumed_singleton, consumed_clipChains, List.nil_append,
    joinChain, links_joinedLabels, List.mem_append]
  constructor
  · -- What the clips produced is read by the last chain.
    rintro ⟨hmade | hmade, hunread⟩
    · exact absurd hmade hunread
    · exact hmade
  · intro hlabel
    exact ⟨.inr hlabel, ((fits_joinChain sound h).new label hlabel).1⟩

omit [Arithmetic α] in
/-- The raw labels of one clip carry its number. -/
theorem raw_of_mem_clipLabels {filters : List (Filter α)} {sound : Bool} {n : Nat} {label : String}
    (h : label ∈ clipLabels filters sound n) (hraw : Label.isRaw label = true) :
    ∃ stream, label = Label.raw n stream := by
  have hsound : label ∈ (if sound then [Label.raw n .audio] else []) →
      ∃ stream, label = Label.raw n stream := by
    cases sound with
    | true => exact fun h => ⟨.audio, List.mem_singleton.1 h⟩
    | false => simp
  rcases List.mem_cons.1 h with rfl | h
  · cases hfilters : filters.isEmpty with
    | true => exact ⟨.video, if_pos rfl⟩
    | false =>
        rw [hfilters] at hraw
        exact absurd hraw (by simp [Label.isRaw_clipVideo])
  · exact hsound h

omit [Arithmetic α] in
/-- The chain of one clip reads its number only. -/
theorem raw_of_mem_clipChain {filters : List (Filter α)} {n : Nat} {node : Node α} {label : String}
    (hnode : node ∈ clipChain filters n) (hlabel : label ∈ node.inputs) :
    ∃ stream, label = Label.raw n stream := by
  unfold clipChain at hnode
  split at hnode
  · cases hnode
  · obtain rfl := List.mem_singleton.1 hnode
    exact ⟨.video, List.mem_singleton.1 hlabel⟩

/-- What the chains of a join read of the inputs are the clips. -/
theorem numbered_joinGraph (filters : List (Filter α)) (sound : Bool) (count : Nat) :
    Numbered count (reads (some (joinGraph filters sound count))) := by
  intro label hlabel hraw
  have hread : ∃ n, n < count ∧ ∃ stream, label = Label.raw n stream := by
    simp only [reads, joinGraph, List.flatMap_append, List.mem_append, List.flatMap_singleton,
      joinChain] at hlabel
    rcases hlabel with hlabel | hlabel
    · obtain ⟨node, hnode, hlabel⟩ := List.mem_flatMap.1 hlabel
      obtain ⟨n, hn, hnode⟩ := List.mem_flatMap.1 hnode
      exact ⟨n, by simpa using hn, raw_of_mem_clipChain hnode hlabel⟩
    · obtain ⟨n, hn, hlabel⟩ := List.mem_flatMap.1 hlabel
      exact ⟨n, by simpa using hn, raw_of_mem_clipLabels hlabel hraw⟩
  obtain ⟨n, hn, stream, rfl⟩ := hread
  exact ⟨n, stream, rfl, hn⟩

/-- The video of every clip is read, by its own chain or by the one that plays it. -/
theorem raw_mem_joinGraph (filters : List (Filter α)) (sound : Bool) {n count : Nat}
    (hn : n < count) :
    Label.raw n .video ∈ reads (some (joinGraph filters sound count)) := by
  have hrange : n ∈ List.range' 0 count := by simpa using hn
  simp only [reads, joinGraph, List.flatMap_append, List.mem_append, List.flatMap_singleton,
    joinChain]
  cases hfilters : filters.isEmpty with
  | true =>
      refine .inr (List.mem_flatMap.2 ⟨n, hrange, ?_⟩)
      simp [clipLabels, hfilters]
  | false =>
      let node : Node α := ⟨[Label.raw n .video], filters, [Label.clipVideo n]⟩
      have hnode : node ∈ clipChains filters 0 count := by
        refine List.mem_flatMap.2 ⟨n, hrange, ?_⟩
        simp [clipChain, hfilters, node]
      exact .inl (List.mem_flatMap.2 ⟨node, hnode, by simp [node]⟩)

/-- Parts around the graph of a join are wired if the map of the sound and the loops
are. -/
theorem wired_joinGraph {inputs : List Input} {maps : List StreamMap} {options : OutputOptions α}
    (filters : List (Filter α)) (sound : Bool) (count : Nat) (hinputs : inputs ≠ [])
    (hchosen : ChoosesAll inputs.length (some (joinGraph filters sound count)) maps)
    (hbounded : ∀ input ∈ inputs, input.loop.isSome = true →
      options.shortest = true ∨ options.duration.isSome = true) :
    Wired inputs (some (joinGraph filters sound count)) maps options where
  someInput := hinputs
  wellFormed g hg := by
    cases hg
    obtain ⟨hclips, -⟩ := routeClips_noted filters sound count 0 [] Graph.linked_nil
      (by simp [Graph.produced])
    have hlinked := (Graph.linked_concat_iff _ _).2 ⟨hclips, fits_joinChain sound hclips⟩
    exact ((hlinked.build_noted_iff _ _ _).1 (build_joinGraph sound hclips)).1
  apart label hvideo haudio := by
    cases hvideo
    cases sound with
    | true => exact labelOf_ne (Option.some.inj haudio).symm
    | false => cases haudio
  chosen := hchosen
  bounded := hbounded

/-- The input of the track that replaces the sound of a join. -/
def joinTrack : Sound → List Input
  | .replaced track _ temporary => [{ clip := track, loop := some joinLoops, temporary }]
  | _ => []

/-- The inputs of a join: the clips, and the track that replaces their sound. -/
def joinInputs (clips : List Clip) (sound : Sound) : List Input :=
  clips.map (fun clip => { clip := clip }) ++ joinTrack sound

/-- The maps of a join of `count` clips: its video, and its sound or the one of the input
behind the clips. -/
def joinMaps (sound : Sound) (count : Nat) : List StreamMap :=
  .ofLabel videoLabel ::
    match sound with
    | .original => [.ofLabel audioLabel]
    | .replaced _ _ _ => [.ofStream count .audio none false]
    | _ => []

/-- The options of a join: a replacing track ends with the video. -/
def joinOptions (sound : Sound) (format : Option String) : OutputOptions α :=
  { format, shortest := !(joinTrack sound).isEmpty }

/-- A track that is no source is found behind the sources. -/
theorem idxOf?_replacing {sources : List Input} {replacing : Input} (h : replacing ∉ sources) :
    (sources ++ [replacing]).idxOf? replacing = some sources.length := by
  rw [List.idxOf?_eq_some_iff]
  refine ⟨by simp, by simp, fun n hn heq => ?_⟩
  rw [List.getElem_append_left hn] at heq
  exact h (heq ▸ List.getElem_mem hn)

/-- **What a join hands to the assembler.**  Clips that can be joined pass the builder, so
that only the assembler is left. -/
theorem join_eq {clips : List Clip} {sound : Sound} (resize : Option Resize) (target : String)
    (format : Option String) (hclips : 2 ≤ clips.length) (hsound : sound.check = .ok ()) :
    join (α := α) clips resize sound target format =
      assemble (joinInputs clips sound)
        (some (joinGraph (Resize.filtersOf resize) sound.isOriginal clips.length))
        (joinMaps sound clips.length) (joinOptions sound format) target none := by
  obtain ⟨hlinked, hroute⟩ := routeClips_noted (Resize.filtersOf resize) sound.isOriginal
    clips.length 0 [] (Graph.linked_nil (α := α)) (by simp [Graph.produced])
  have hchain := (Builder.chain_noted _ (joinChain (Resize.filtersOf resize) sound.isOriginal
    clips.length) _).2 ⟨fits_joinChain sound.isOriginal hlinked, rfl⟩
  have hbuild := build_joinGraph sound.isOriginal hlinked
  have hbuilt {next : Graph α → Except Failure (Plan α)} :
      (do
        let routed ← (routeClips (Resize.filtersOf resize) sound.isOriginal clips.length 0
          Builder.empty).mapError .plan
        let builder ← (routed.1.chain routed.2 [concatFilter clips.length sound.isOriginal]
          (joinedResults sound.isOriginal)).mapError .plan
        let graph ← (builder.build (some videoLabel)
          (if sound.isOriginal then some audioLabel else none)).mapError .plan
        next graph) =
      next (joinGraph (Resize.filtersOf resize) sound.isOriginal clips.length) :=
    (Ends.mapError_bind hroute).trans
      ((Ends.mapError_bind hchain).trans (Ends.mapError_bind hbuild))
  unfold join
  rw [if_neg (by omega), hsound]
  cases sound with
  | original | muted =>
      rw [joinInputs, joinTrack.eq_def, List.append_nil]
      exact hbuilt
  | replaced track loop temporary =>
      -- The track may be one of the clips, but as an input it is repeated, and they are not.
      let replacing : Input := { clip := track, loop := some joinLoops, temporary }
      have hnew : replacing ∉ clips.map fun clip => { clip := clip } := by simp [replacing]
      have hindex := idxOf?_replacing hnew
      rw [List.length_map] at hindex
      refine hbuilt.trans ?_
      simp only [replacing] at hindex
      simp only [hindex]
      rfl
  | unknown shown => cases hsound

/-- The parts of a join are wired. -/
theorem wired_join {clips : List Clip} {sound : Sound} (resize : Option Resize)
    (format : Option String) (hclips : clips ≠ []) (hsound : sound.check = .ok ()) :
    Wired (joinInputs clips sound)
      (some (joinGraph (α := α) (Resize.filtersOf resize) sound.isOriginal clips.length))
      (joinMaps sound clips.length) (joinOptions sound format) := by
  refine wired_joinGraph _ _ _ (by simp [joinInputs, hclips]) ?_ ?_
  · cases sound with
    | original => exact .both (.result _ rfl) (.result _ rfl)
    | muted => exact .video (.result _ rfl) rfl
    | replaced track loop temporary =>
        exact .both (.result _ rfl)
          (.source clips.length _ _ rfl (by simp [joinInputs, joinTrack]))
    | unknown shown => cases hsound
  · cases sound <;> simp [joinInputs, joinTrack, joinOptions]

/-- **A join comes out as a closed plan**, for any number of clips. -/
theorem join_ends (clips : List Clip) (resize : Option Resize) (sound : Sound) (target : String)
    (format : Option String) :
    Ends Closed (Rejection clips.length) (join (α := α) clips resize sound target format) := by
  by_cases hclips : 2 ≤ clips.length
  · cases hsound : sound.check with
    | error failure =>
        unfold join
        rw [if_neg (by omega), hsound]
        cases sound with
        | unknown shown =>
            cases hsound
            exact .field _ _
        | original | muted | replaced => cases hsound
    | ok =>
        have hsome : clips ≠ [] := by
          rintro rfl
          simp at hclips
        rw [join_eq resize target format hclips hsound]
        exact (wired_join resize format hsome hsound).assemble_ends (numbered_joinGraph _ _ _)
          (by simp [joinInputs]) target none
  · unfold join
    rw [if_pos (by omega)]
    exact .field _ _

end Montage.Plan
