import Montage.Plan.Command
import Montage.Proofs.Filter
import Montage.Proofs.Graph.Text
import Montage.Proofs.Plan.EditFlow

/-!
# The graph that the engine gets

What is checked of a graph are its chains and labels; what the engine gets is one text.  The
filters that a planner writes itself are words and numbers, so they divide nothing in the text.
The filters of the caller go into the text as they stand.  So the engine finds in the text the
chains and the labels that were checked exactly if no filter of the caller that is used marks
more of them (`settle_shows`).
-/

namespace Montage

open Text

namespace Plan

variable {α : Type} [Arithmetic α]

/-- The arguments before the graph: those of the run and those of the inputs. -/
def leadingArguments (plan : Plan α) (program : String) (progress : Bool) : List String :=
  [program, "-y", "-hide_banner"] ++ (if progress then progressArguments else []) ++
    plan.inputs.flatMap Input.arguments

/-- The arguments behind the graph: the maps and the output. -/
def trailingArguments (plan : Plan α) : List String :=
  plan.maps.flatMap (fun m => ["-map", m.render]) ++ plan.options.arguments ++ [plan.target]

/-- The graph of a plan is one argument of the engine. -/
theorem command_graph {plan : Plan α} {graph : Graph α} (h : plan.graph = some graph)
    (program : String) (progress : Bool) :
    plan.command program progress = plan.leadingArguments program progress ++
      ["-filter_complex", graph.render] ++ plan.trailingArguments := by
  rw [command, h]
  simp [optionArguments, leadingArguments, trailingArguments]

theorem isPlain_labelOf (stream : Stream) : Label.IsPlain (labelOf stream) := by
  cases stream <;> decide

variable {video audio : List (Filter α)} {graph : Graph α}

theorem filterTexts_sourceChains (stream : Stream) (filters : List (Filter α)) :
    (sourceChains stream filters).flatMap Node.filterTexts = filters.map Filter.render := by
  cases filters with
  | nil => rfl
  | cons first rest => exact List.flatMap_singleton _ _

/-- The filters of the graph of a source are those of the video and those of the sound. -/
theorem filterTexts_sourceGraph (h : sourceGraph video audio = some graph) :
    graph.filterTexts = video.map Filter.render ++ audio.map Filter.render := by
  unfold sourceGraph at h
  split at h
  · cases h
  · cases h
    rw [Graph.filterTexts, List.flatMap_append, filterTexts_sourceChains, filterTexts_sourceChains]

omit [Arithmetic α] in
theorem eq_sourceChain {stream : Stream} {filters : List (Filter α)} {node : Node α}
    (h : node ∈ sourceChains stream filters) : node = sourceChain stream filters := by
  unfold sourceChains at h
  split at h
  · cases h
  · exact List.mem_singleton.1 h

omit [Arithmetic α] in
/-- The graph of a source is plain. -/
theorem isPlain_sourceGraph (h : sourceGraph video audio = some graph) : graph.IsPlain := by
  have hnodes : ∀ node ∈ sourceChains .video video ++ sourceChains .audio audio,
      ∃ stream filters, node = sourceChain stream filters := by
    intro node hnode
    rcases List.mem_append.1 hnode with hnode | hnode
    · exact ⟨_, _, eq_sourceChain hnode⟩
    · exact ⟨_, _, eq_sourceChain hnode⟩
  unfold sourceGraph at h
  split at h
  · cases h
  · next hsome =>
      cases h
      refine ⟨?_, fun label hlabel => ?_, fun node hnode => ?_⟩
      · intro hnone
        cases video <;> cases audio <;> simp_all [sourceChains]
      · obtain ⟨node, hnode, hlabel⟩ := List.mem_flatMap.1 hlabel
        obtain ⟨stream, filters, rfl⟩ := hnodes node hnode
        obtain rfl | rfl : label = Label.raw 0 stream ∨ label = labelOf stream := by
          simpa [Node.labels, sourceChain] using hlabel
        · exact Label.isPlain_raw 0 stream
        · exact isPlain_labelOf stream
      · obtain ⟨stream, filters, rfl⟩ := hnodes node hnode
        exact List.cons_ne_nil _ _

end Plan

section Own

variable {α : Type}

theorem Filter.all_ite {kind : Filter α → Bool} {c : Prop} [Decidable c]
    {filters others : List (Filter α)} (h : filters.all kind = true)
    (hothers : others.all kind = true) : (if c then filters else others).all kind = true := by
  split
  · exact h
  · exact hothers

theorem Filter.isQuiet_positional {name : String} {args : List (Arg α)}
    (hname : Text.isQuiet name = true) (hargs : args.all Arg.isQuiet = true) :
    [positional name args].all isQuiet = true := by
  have hkeys : (args.map fun arg => ((none : Option String), arg)).all
      (fun arg => arg.1.all Text.isQuiet && arg.2.isQuiet) = true := by
    rw [List.all_map]
    exact hargs
  rw [List.all_cons, isQuiet, positional, hname, hkeys]
  rfl

/-- The filters of a tempo are quiet. -/
theorem Tempo.isQuiet_filtersOf (stages : List α) :
    (filtersOf stages).all Filter.isQuiet = true := by
  induction stages with
  | nil => rfl
  | cons stage rest ih =>
      have hstage : [Filter.positional "atempo" [.number stage]].all Filter.isQuiet = true :=
        Filter.isQuiet_positional rfl rfl
      rw [filtersOf, List.map_cons, ← List.singleton_append, List.all_append, hstage]
      exact ih

variable [Arithmetic α]

/-- The filters of a resize are quiet. -/
theorem Resize.isQuiet_filtersOf (resize : Option Resize) :
    (filtersOf resize : List (Filter α)).all Filter.isQuiet = true := by
  have hwords : ["scale", "force_original_aspect_ratio", "increase", "decrease", "crop", "pad",
      "(ow-iw)/2", "(oh-ih)/2", "setsar"].all Text.isQuiet = true := rfl
  simp only [List.all_cons, Bool.and_eq_true] at hwords
  cases resize with
  | none => rfl
  | some resize =>
      unfold filtersOf filters
      refine Filter.all_ite ?stretched (Filter.all_ite ?covering ?fitted)
      case stretched | covering | fitted =>
        simp [Filter.isQuiet, scaleFilter, squarePixels, Filter.positional, Arg.isQuiet, hwords]

omit [Arithmetic α] in
/-- A fade is quiet if its kind is. -/
theorem Edit.isQuiet_fadeFilter {kind : String} (h : Text.isQuiet kind = true) (start length : α) :
    [fadeFilter kind start length].all Filter.isQuiet = true := by
  have hwords : ["afade", "t", "st", "d"].all Text.isQuiet = true := rfl
  simp only [List.all_cons, Bool.and_eq_true] at hwords
  simp [fadeFilter, Filter.isQuiet, Arg.isQuiet, h, hwords]

end Own

namespace Edit

open Plan

/-- The filters of the caller that an edit uses: those of the sound only if it is kept. -/
def usedFilters {α : Type} (edit : Edit α) : List String :=
  edit.videoFilters ++ if edit.sound.isOriginal then edit.audioFilters else []

/-- Quiet filters around those of the caller mark nothing. -/
theorem isUnmarked_filters_iff {callers : List String} {before after : List (Filter Number)}
    (hbefore : before.all Filter.isQuiet = true) (hafter : after.all Filter.isQuiet = true) :
    (∀ text ∈ (before ++ callers.map Filter.ofExpression ++ after).map Filter.render,
        IsUnmarked text) ↔
      ∀ expression ∈ callers, IsUnmarked expression := by
  have hquiet {filters : List (Filter Number)} (hall : filters.all Filter.isQuiet = true) :
      ∀ filter ∈ filters, IsUnmarked filter.render := by
    intro filter hfilter
    have hsigns := isQuiet_iff.1 (Filter.isQuiet_render (List.all_eq_true.1 hall filter hfilter))
    exact ⟨hsigns ';' (by decide), hsigns '[' (by decide)⟩
  have hcaller (expression : String) :
      IsUnmarked (Filter.ofExpression expression : Filter Number).render ↔
        IsUnmarked expression := by
    have hsemicolon : isBlank ';' = false := by decide
    have hbracket : isBlank '[' = false := by decide
    rw [IsUnmarked, Filter.mem_render_ofExpression hsemicolon,
      Filter.mem_render_ofExpression hbracket]
    rfl
  -- Of the three parts only the one in the middle can be marked.
  simp only [List.forall_mem_map, List.forall_mem_append, hcaller]
  exact ⟨fun h => h.1.2, fun h => ⟨⟨hquiet hbefore, h⟩, hquiet hafter⟩⟩

variable {edit : Edit Number} {clip : Clip} {target : String} {plan : Plan Number}
  {graph : Graph Number}

/-- In the filters of the video only the caller can mark chains or links. -/
theorem isUnmarked_videoPath_iff :
    (∀ text ∈ edit.videoPath.map Filter.render, IsUnmarked text) ↔
      ∀ expression ∈ edit.videoFilters, IsUnmarked expression := by
  refine isUnmarked_filters_iff (Resize.isQuiet_filtersOf edit.resize) ?_
  exact Filter.all_ite (Filter.isQuiet_positional rfl rfl) rfl

/-- So it is in the filters of the sound. -/
theorem isUnmarked_soundPath_iff (stages : List Number) (source : Number) :
    (∀ text ∈ (edit.soundPath stages source).map Filter.render, IsUnmarked text) ↔
      ∀ expression ∈ edit.audioFilters, IsUnmarked expression := by
  have hnone : ([] : List (Filter Number)).all Filter.isQuiet = true := rfl
  unfold soundPath steadyPath
  simp only [List.append_assoc]
  refine isUnmarked_filters_iff hnone ?_
  simp only [List.all_append, Bool.and_eq_true]
  refine ⟨?tempo, ?volume, ?beginning, ?ending⟩
  case tempo => exact Filter.all_ite (Tempo.isQuiet_filtersOf stages) hnone
  case volume => exact Filter.all_ite hnone (Filter.isQuiet_positional rfl rfl)
  case beginning => exact Filter.all_ite (isQuiet_fadeFilter rfl _ _) hnone
  case ending => exact Filter.all_ite (isQuiet_fadeFilter rfl _ _) hnone

/-- The graph of a plan that an edit is settled to. -/
theorem graph_of_settle {probe : Option (Probe Number)}
    (h : (edit.plan clip target).settle probe = .ok plan) :
    ∃ stages source, plan.graph = sourceGraph edit.videoPath (edit.keptPath stages source) := by
  obtain ⟨-, length, hcompose, hlength⟩ := of_settle h
  obtain ⟨video, audio, hvideo, haudio, rfl⟩ := of_compose hcompose
  obtain rfl := eq_videoPath hvideo
  -- An edit that needs no length has the same filters for any.
  have hsource : ∃ source, edit.needsLength = true → length = some (edit.outputLength source) := by
    by_cases hneeds : edit.needsLength = true
    · obtain ⟨source, -, hsource⟩ := hlength hneeds
      exact ⟨source, fun _ => hsource⟩
    · exact ⟨Arithmetic.zero, fun hlong => absurd hlong hneeds⟩
  obtain ⟨source, hsource⟩ := hsource
  obtain ⟨stages, -, rfl⟩ := eq_keptPath hsource haudio
  exact ⟨stages, source, rfl⟩

/-- **The engine sees the graph of an edit exactly if the caller marks nothing in it.**  The graph
of a plan is one argument of the engine.  The chains and the links that the engine finds in it are
those that were checked exactly if no filter of the caller that the edit uses has a semicolon or an
opening bracket. -/
theorem settle_shows {probe : Option (Probe Number)}
    (h : (edit.plan clip target).settle probe = .ok plan) (hgraph : plan.graph = some graph) :
    (∀ program progress, plan.command program progress = plan.leadingArguments program progress ++
      ["-filter_complex", graph.render] ++ plan.trailingArguments) ∧
    (graph.Shows ↔ ∀ expression ∈ edit.usedFilters, IsUnmarked expression) := by
  refine ⟨command_graph hgraph, ?_⟩
  obtain ⟨stages, source, hpaths⟩ := graph_of_settle h
  have hsource := hpaths.symm.trans hgraph
  rw [Graph.shows_iff (isPlain_sourceGraph hsource), filterTexts_sourceGraph hsource,
    List.forall_mem_append, isUnmarked_videoPath_iff, usedFilters, List.forall_mem_append]
  refine and_congr_right fun _ => ?_
  unfold keptPath
  split
  · exact isUnmarked_soundPath_iff stages source
  · simp

/-- An edit whose sound is not kept, with filters for the video and the sound. -/
def mutedWithFilters : Edit Number :=
  { Edit.unchanged with
    videoFilters := ["eq=contrast=1.2"], audioFilters := ["[0:v]anullsink;aecho"],
    sound := .muted }

/-- The filters of the sound that are not used mark nothing. -/
theorem settle_shows_muted :
    ∃ plan graph, (mutedWithFilters.plan ⟨"a.mp4", "/a.mp4"⟩ "out.mp4").settle none = .ok plan ∧
      plan.graph = some graph ∧ graph.Shows := by
  let settled := (mutedWithFilters.plan ⟨"a.mp4", "/a.mp4"⟩ "out.mp4").settle none
  have hsome : (settled.toOption.bind (·.graph)).isSome = true := by decide +kernel
  obtain ⟨graph, hfound⟩ := Option.isSome_iff_exists.1 hsome
  obtain ⟨plan, hresult, hgraph⟩ := Option.bind_eq_some_iff.1 hfound
  have hplan : settled = .ok plan := Ends.of_toOption hresult
  have hunmarked : ∀ expression ∈ mutedWithFilters.usedFilters, IsUnmarked expression := by decide
  exact ⟨plan, graph, hplan, hgraph, (settle_shows hplan hgraph).2.2 hunmarked⟩

/-- An edit whose filter ends its chain and begins another one, on an input that is not there. -/
def withForeignChain : Edit Number :=
  { Edit.unchanged with videoFilters := ["null[w];[7:v][w]overlay"] }

/-- What was checked is one chain between two labels; what the engine gets is two chains between
five. -/
theorem not_shows_withForeignChain :
    ∃ plan graph, (withForeignChain.plan ⟨"a.mp4", "/a.mp4"⟩ "out.mp4").settle none = .ok plan ∧
      plan.graph = some graph ∧ graph.nodes.length = 1 ∧ graph.labels = ["0:v", "v"] ∧
      (graph.render.toList.splitOn ';').length = 2 ∧
      linksIn graph.render = ["0:v", "w", "7:v", "w", "v"] ∧ ¬ graph.Shows := by
  let settled := (withForeignChain.plan ⟨"a.mp4", "/a.mp4"⟩ "out.mp4").settle none
  have hfound : (settled.toOption.bind (·.graph)).map (fun graph =>
      (graph.nodes.length, graph.labels, (graph.render.toList.splitOn ';').length,
        linksIn graph.render)) =
      some (1, ["0:v", "v"], 2, ["0:v", "w", "7:v", "w", "v"]) := by decide +kernel
  obtain ⟨graph, hgraph, hparts⟩ := Option.map_eq_some_iff.1 hfound
  obtain ⟨plan, hresult, hgraph⟩ := Option.bind_eq_some_iff.1 hgraph
  have hplan : settled = .ok plan := Ends.of_toOption hresult
  simp only [Prod.mk.injEq] at hparts
  obtain ⟨hnodes, hlabels, hchains, hlinks⟩ := hparts
  refine ⟨plan, graph, hplan, hgraph, hnodes, hlabels, hchains, hlinks, fun hshows => ?_⟩
  rw [Graph.Shows, hnodes, hchains] at hshows
  cases hshows.1

end Edit

end Montage
