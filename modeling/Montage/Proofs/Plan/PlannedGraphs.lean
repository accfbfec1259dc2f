import Montage.Proofs.Graph.Reading
import Montage.Proofs.Plan.GraphText
import Montage.Proofs.Request.FilterText

/-!
# The graphs of plans can be read

The planners name links by letters and numbers and write filters with words and numbers, so every
graph that they make can be read from its text, as long as the filters of the caller in it are
not blank and have none of the signs that divide the text (`isReadable_of_isPlanned`).  The engine
gets nothing but the text, and different graphs of this kind have different texts
(`render_injective`).
-/

namespace Montage

open Text

namespace Filter

variable {α : Type}

/-- Whether a filter has a name. -/
def isNamed (f : Filter α) : Bool := f.name != ""

/-- A filter with a name is written as no empty text. -/
theorem render_ne_empty [Arithmetic α] {f : Filter α} (h : f.isNamed = true) : f.render ≠ "" := by
  have hname : f.name ≠ "" := by simpa [isNamed] using h
  unfold render
  split
  · exact hname
  · simp [hname]

/-- Filters whose texts can stand between commas. -/
def ArePieces [Arithmetic α] (filters : List (Filter α)) : Prop :=
  ∀ filter ∈ filters, IsPiece filter.render

/-- Filters of words and numbers can. -/
theorem arePieces_of_all {filters : List (Filter Number)} (hquiet : filters.all isQuiet = true)
    (hnamed : filters.all isNamed = true) : ArePieces filters := fun filter hfilter =>
  ⟨render_ne_empty (List.all_eq_true.1 hnamed filter hfilter),
    isQuiet_render (List.all_eq_true.1 hquiet filter hfilter)⟩

variable [Arithmetic α]

theorem arePieces_nil : ArePieces ([] : List (Filter α)) := nofun

theorem arePieces_append {filters others : List (Filter α)} :
    ArePieces (filters ++ others) ↔ ArePieces filters ∧ ArePieces others :=
  List.forall_mem_append

theorem arePieces_ite {c : Prop} [Decidable c] {filters others : List (Filter α)}
    (h : ArePieces filters) (hothers : ArePieces others) :
    ArePieces (if c then filters else others) := by
  split
  · exact h
  · exact hothers

/-- A filter of the caller that is not blank and has no sign that divides the text of a graph. -/
def IsHarmless (expression : String) : Prop :=
  Request.isGiven expression = true ∧ Text.isQuiet expression = true

/-- The caller's filters can if they are harmless. -/
theorem arePieces_callers {callers : List String}
    (h : ∀ expression ∈ callers, IsHarmless expression) :
    ArePieces (callers.map (ofExpression (α := α))) := by
  refine List.forall_mem_map.2 fun expression hexpression => ?_
  obtain ⟨hgiven, hquiet⟩ := h expression hexpression
  refine ⟨fun hempty => ?_, isQuiet_iff.2 fun sign hsign => ?_⟩
  · have hblank := isBlankText_render (α := α) expression
    rw [Request.isGiven, ← hblank, hempty] at hgiven
    cases hgiven
  · have hsolid : dividers.all (fun sign => !isBlank sign) = true := by decide
    have hsign' : isBlank sign = false := by simpa using List.all_eq_true.1 hsolid sign hsign
    rw [mem_render_ofExpression hsign']
    exact isQuiet_iff.1 hquiet sign hsign

end Filter

open Filter

theorem Tempo.arePieces_filtersOf (stages : List Number) : ArePieces (filtersOf stages) := by
  refine arePieces_of_all (isQuiet_filtersOf stages) ?_
  rw [filtersOf, List.all_map]
  exact List.all_eq_true.2 fun _ _ => rfl

theorem Resize.arePieces_filtersOf (resize : Option Resize) :
    ArePieces (filtersOf resize : List (Filter Number)) := by
  refine arePieces_of_all (isQuiet_filtersOf resize) ?_
  cases resize with
  | none => rfl
  | some resize =>
      unfold filtersOf filters
      exact all_ite rfl (all_ite rfl rfl)

namespace Edit

variable {edit : Edit Number}

/-- A fade can stand between commas if its kind is quiet. -/
theorem arePieces_fadeFilter {kind : String} (h : isQuiet kind = true) (start length : Number) :
    ArePieces [fadeFilter kind start length] :=
  arePieces_of_all (isQuiet_fadeFilter h start length) rfl

/-- The filters of the video, with those of the caller among them. -/
theorem arePieces_videoPath
    (h : ∀ expression ∈ edit.videoFilters, IsHarmless expression) : ArePieces edit.videoPath := by
  have htiming : ArePieces
      [(positional "setpts" [.scaledTime (Tempo.timeFactor edit.speed)] : Filter Number)] :=
    arePieces_of_all (isQuiet_positional rfl rfl) rfl
  rw [videoPath, arePieces_append, arePieces_append]
  exact ⟨⟨Resize.arePieces_filtersOf edit.resize, arePieces_callers h⟩,
    arePieces_ite htiming arePieces_nil⟩

/-- The filters of the sound, with those of the caller among them. -/
theorem arePieces_soundPath
    (h : ∀ expression ∈ edit.audioFilters, IsHarmless expression)
    (stages : List Number) (source : Number) : ArePieces (edit.soundPath stages source) := by
  have hvolume : ArePieces [(positional "volume" [.number edit.volume] : Filter Number)] :=
    arePieces_of_all (isQuiet_positional rfl rfl) rfl
  simp only [soundPath, steadyPath, arePieces_append]
  refine ⟨⟨⟨⟨arePieces_callers h, ?tempo⟩, ?volume⟩, ?beginning⟩, ?ending⟩
  case tempo => exact arePieces_ite (Tempo.arePieces_filtersOf stages) arePieces_nil
  case volume => exact arePieces_ite arePieces_nil hvolume
  case beginning => exact arePieces_ite (arePieces_fadeFilter rfl _ _) arePieces_nil
  case ending => exact arePieces_ite (arePieces_fadeFilter rfl _ _) arePieces_nil

end Edit

namespace Plan

/-- A graph that a planner makes, where no filter of the caller in it is blank or has a sign that
divides the text of a graph. -/
inductive IsPlanned : Graph Number → Prop
  | changeSpeed {clip : Clip} {ratio : Number} {target : String} {plan : Plan Number}
    {graph : Graph Number} (h : changeSpeed clip ratio target = .ok plan)
    (hgraph : plan.graph = some graph) : IsPlanned graph
  | join {clips : List Clip} {resize : Option Resize} {sound : Sound} {target : String}
    {format : Option String} {plan : Plan Number} {graph : Graph Number}
    (h : join clips resize sound target format = .ok plan) (hgraph : plan.graph = some graph) :
    IsPlanned graph
  | edit {edit : Edit Number} {clip : Clip} {target : String} {probe : Option (Probe Number)}
    {plan : Plan Number} {graph : Graph Number}
    (h : (edit.plan clip target).settle probe = .ok plan) (hgraph : plan.graph = some graph)
    (hcallers : ∀ expression ∈ edit.usedFilters, IsHarmless expression) : IsPlanned graph

variable {α : Type} [Arithmetic α]

/-- A chain from one stream of the source can be read. -/
theorem isReadable_sourceChains {stream : Stream} {filters : List (Filter α)}
    (h : ArePieces filters) : ∀ node ∈ sourceChains stream filters, node.IsReadable := by
  intro node hnode
  unfold sourceChains at hnode
  split at hnode
  · cases hnode
  · next hsome =>
      obtain rfl := List.mem_singleton.1 hnode
      refine ⟨by simpa [sourceChain] using hsome, ?_, List.forall_mem_map.2 h⟩
      exact List.forall_mem_cons.2 ⟨Label.isPlain_raw 0 stream,
        List.forall_mem_singleton.2 (isPlain_labelOf stream)⟩

theorem isReadable_sourceGraph {video audio : List (Filter α)} {graph : Graph α}
    (h : sourceGraph video audio = some graph) (hvideo : ArePieces video)
    (haudio : ArePieces audio) : graph.IsReadable := by
  unfold sourceGraph at h
  split at h
  · cases h
  · cases h
    exact List.forall_mem_append.2
      ⟨isReadable_sourceChains hvideo, isReadable_sourceChains haudio⟩

/-- The chain of one clip can be read. -/
theorem isReadable_clipChain {filters : List (Filter α)} (h : ArePieces filters) (n : Nat) :
    ∀ node ∈ clipChain filters n, node.IsReadable := by
  intro node hnode
  unfold clipChain at hnode
  split at hnode
  · cases hnode
  · next hsome =>
      obtain rfl := List.mem_singleton.1 hnode
      refine ⟨by simpa using hsome, ?_, List.forall_mem_map.2 h⟩
      exact List.forall_mem_cons.2 ⟨Label.isPlain_raw n .video,
        List.forall_mem_singleton.2 (Label.isPlain_clipVideo n)⟩

omit [Arithmetic α] in
/-- The labels under which clips are joined are plain. -/
theorem isPlain_joinedLabels (filters : List (Filter α)) (sound : Bool) (index count : Nat) :
    ∀ label ∈ joinedLabels filters sound index count, Label.IsPlain label := by
  intro label hlabel
  obtain ⟨n, -, hlabel⟩ := List.mem_flatMap.1 hlabel
  rcases List.mem_cons.1 hlabel with rfl | hlabel
  · split
    · exact Label.isPlain_raw n .video
    · exact Label.isPlain_clipVideo n
  · cases sound with
    | true =>
        rw [List.mem_singleton.1 hlabel]
        exact Label.isPlain_raw n .audio
    | false => cases hlabel

/-- The graph of a join can be read. -/
theorem isReadable_joinGraph {filters : List (Filter Number)} (h : ArePieces filters)
    (sound : Bool) (count : Nat) : (joinGraph filters sound count).IsReadable := by
  refine List.forall_mem_append.2 ⟨fun node hnode => ?_, List.forall_mem_singleton.2 ?_⟩
  · obtain ⟨n, -, hnode⟩ := List.mem_flatMap.1 hnode
    exact isReadable_clipChain h n node hnode
  · have hwords : ["concat", "n", "v", "a"].all isQuiet = true := rfl
    simp only [List.all_cons, Bool.and_eq_true] at hwords
    have hconcat : ArePieces [(concatFilter count sound : Filter Number)] :=
      arePieces_of_all (by simp [concatFilter, Filter.isQuiet, Arg.isQuiet, hwords]) rfl
    have hresults : ∀ label ∈ joinedResults sound, Label.IsPlain label := by
      cases sound <;> decide
    refine ⟨List.cons_ne_nil _ _, ?_, List.forall_mem_map.2 hconcat⟩
    exact List.forall_mem_append.2 ⟨isPlain_joinedLabels filters sound 0 count, hresults⟩

/-- **The graphs of plans can be read.** -/
theorem isReadable_of_isPlanned {graph : Graph Number} (h : IsPlanned graph) :
    graph.IsReadable := by
  cases h with
  | changeSpeed h hgraph =>
      obtain ⟨timing, tempo, htiming, htempo, rfl⟩ := of_changeSpeed h
      obtain ⟨stages, -, rfl⟩ := Edit.of_tempo htempo
      obtain ⟨-, -, htiming⟩ := Ends.of_bind_ok htiming
      cases htiming
      exact isReadable_sourceGraph hgraph (arePieces_of_all (isQuiet_positional rfl rfl) rfl)
        (Tempo.arePieces_filtersOf stages)
  | join h hgraph =>
      obtain ⟨-, rfl⟩ := of_join h
      cases hgraph
      exact isReadable_joinGraph (Resize.arePieces_filtersOf _) _ _
  | edit h hgraph hcallers =>
      obtain ⟨hvideo, haudio⟩ := List.forall_mem_append.1 hcallers
      obtain ⟨stages, source, hpaths⟩ := Edit.graph_of_settle h
      refine isReadable_sourceGraph (hpaths.symm.trans hgraph) (Edit.arePieces_videoPath hvideo) ?_
      unfold Edit.keptPath
      split
      · next hkept =>
          rw [if_pos hkept] at haudio
          exact Edit.arePieces_soundPath haudio stages source
      · exact arePieces_nil

end Plan

namespace Graph

variable {α : Type} [Arithmetic α]

/-- **Different graphs have different texts.**  Graphs whose chains have filters, with plain labels
and with filters that are not empty and have no signs that divide, have the same text only if they
have the same chains: as many, and each with the same inputs, texts of filters and outputs.  The
graphs of all plans are such graphs, as far as the caller's filters are harmless. -/
theorem render_injective :
    (∀ graph other : Graph α, graph.IsReadable → other.IsReadable → graph.render = other.render →
      List.Forall₂ (fun node node' => node.inputs = node'.inputs ∧
        node.filterTexts = node'.filterTexts ∧ node.outputs = node'.outputs)
        graph.nodes other.nodes) ∧
    ∀ graph : Graph Number, Plan.IsPlanned graph → graph.IsReadable := by
  refine ⟨fun graph other h hother hrender => ?_, fun graph => Plan.isReadable_of_isPlanned⟩
  exact (outlines_eq h hother hrender).imp fun node node' => Outline.mk.inj

/-- A graph of two chains, with numbers in a filter. -/
def scaling : Graph Number :=
  ⟨[⟨["0:v"], [.positional "scale" [.number (.int 640), .number (.int 480)], .ofExpression "hflip"],
      ["v0"]⟩,
    ⟨["v0", "1:v"], [.ofExpression "concat=n=2"], ["v"]⟩], some "v", none⟩

/-- The same graph with all filters spelled by the caller. -/
def spelled : Graph Number :=
  ⟨[⟨["0:v"], [.ofExpression "scale=640:480", .ofExpression " hflip "], ["v0"]⟩,
    ⟨["v0", "1:v"], [.ofExpression "concat =n=2"], ["v"]⟩], some "v", none⟩

/-- Both have the same text, and so the same chains.  The graph of a threefold speed is read from
its text, too. -/
theorem render_injective_spelled :
    (scaling.IsReadable ∧ spelled.IsReadable ∧ scaling.render = spelled.render ∧
      List.Forall₂ (fun node node' => node.inputs = node'.inputs ∧
        node.filterTexts = node'.filterTexts ∧ node.outputs = node'.outputs)
        scaling.nodes spelled.nodes) ∧
    ∃ plan graph, Plan.changeSpeed ⟨"a", "/a"⟩ (Number.float 3.0) "b.mp4" = .ok plan ∧
      plan.graph = some graph ∧ graph.IsReadable := by
  have hscaling : scaling.IsReadable := by decide +kernel
  have hspelled : spelled.IsReadable := by decide +kernel
  have hrender : scaling.render = spelled.render := by decide +kernel
  let planned := Plan.changeSpeed ⟨"a", "/a"⟩ (Number.float 3.0) "b.mp4"
  have hsome : (planned.toOption.bind (·.graph)).isSome = true := by decide +kernel
  obtain ⟨graph, hfound⟩ := Option.isSome_iff_exists.1 hsome
  obtain ⟨plan, hresult, hgraph⟩ := Option.bind_eq_some_iff.1 hfound
  have hplan : planned = .ok plan := Ends.of_toOption hresult
  obtain ⟨hinjective, hplanned⟩ := render_injective (α := Number)
  exact ⟨⟨hscaling, hspelled, hrender, hinjective scaling spelled hscaling hspelled hrender⟩,
    plan, graph, hplan, hgraph, hplanned graph (.changeSpeed hplan hgraph)⟩

end Graph

end Montage
