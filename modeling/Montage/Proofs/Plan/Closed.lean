import Montage.Proofs.Graph.WellFormed
import Montage.Proofs.Plan.Assemble

/-!
# Closed plans

A plan is `Closed` if nothing in it hangs loose: every stream that is named exists,
every link of the graph is made once and used once, the maps choose one video and at
most one sound, and an input that repeats does not make the output endless.

No single check establishes this.  The builder looks at the graph, the assembler looks
at reads and maps, and nobody counts how often a result is mapped.  What the planners
hand to the assembler is therefore described by `Wired`; wired parts pass the assembler
and the plan made of them is closed (`Wired.assemble_ends`).
-/

namespace Montage

variable {α : Type}

/-- The result of the given kind. -/
def Graph.result (graph : Graph α) : Stream → Option String
  | .video => graph.video
  | .audio => graph.audio

namespace Plan

/-- The chains of a graph, if there is one. -/
def chainsOf (graph : Option (Graph α)) : List (Node α) :=
  match graph with
  | none => []
  | some g => g.nodes

/-- The result of the given kind of a graph, if there is one. -/
def resultOf (graph : Option (Graph α)) (stream : Stream) : Option String :=
  graph.bind fun g => g.result stream

/-- A label of the graph that is no raw stream: a chain reads it or produces it, or it
is a result. -/
def Links (graph : Option (Graph α)) (label : String) : Prop :=
  Label.isRaw label = false ∧
    ((∃ node ∈ chainsOf graph, label ∈ node.inputs ∨ label ∈ node.outputs) ∨
      ∃ stream, resultOf graph stream = some label)

/-- A map that brings a stream of the given kind into the output. -/
def Carries (graph : Option (Graph α)) (stream : Stream) (m : StreamMap) : Prop :=
  match m.label with
  | some label => resultOf graph stream = some label
  | none => m.stream = some stream.letter.toString

/-- A plan in which nothing hangs loose. -/
structure Closed (plan : Plan α) : Prop where
  readsExist : Readable plan.inputs.length (reads plan.graph)
  mapsExist : ∀ m ∈ plan.maps, m.label = none →
    ∃ n : Nat, m.input = some (n : Int) ∧ n < plan.inputs.length
  madeOnce : ∀ label, Links plan.graph label →
    ((chainsOf plan.graph).flatMap (·.outputs)).count label = 1
  /-- A link is read at one place or mapped by one map, and never both. -/
  usedOnce : ∀ label, Links plan.graph label →
    ((chainsOf plan.graph).flatMap (·.inputs)).count label +
      (plan.maps.filterMap (·.label)).count label = 1
  readLater : ∀ before node after, chainsOf plan.graph = before ++ node :: after →
    ∀ label ∈ node.inputs, Label.isRaw label = false →
      ∃ earlier ∈ before, label ∈ earlier.outputs
  oneVideo : plan.maps = [] ∨
    ∃ video sound, plan.maps = video :: sound ∧ Carries plan.graph .video video ∧
      sound.length ≤ 1 ∧ ∀ m ∈ sound, Carries plan.graph .audio m
  bounded : ∀ input ∈ plan.inputs, input.loop.isSome = true →
    plan.options.shortest = true ∨ plan.options.duration.isSome = true

/-- The map that a planner chooses for one kind of stream: the result of the graph, or
a stream of an input if the graph has no such result. -/
inductive Chooses (count : Nat) (graph : Option (Graph α)) (stream : Stream) : StreamMap → Prop
  | result (label : String) (h : resultOf graph stream = some label) :
    Chooses count graph stream (.ofLabel label)
  | source (n : Nat) (position : Option Int) (optional : Bool)
    (h : resultOf graph stream = none) (hn : n < count) :
    Chooses count graph stream (.ofStream n stream position optional)

/-- The maps that a planner chooses: none without a graph, or one for the video and
one for the sound, where the latter may be missing if the graph has no sound. -/
inductive ChoosesAll (count : Nat) (graph : Option (Graph α)) : List StreamMap → Prop
  | nothing (h : graph = none) : ChoosesAll count graph []
  | video {m : StreamMap} (h : Chooses count graph .video m)
    (hsilent : resultOf graph .audio = none) : ChoosesAll count graph [m]
  | both {m n : StreamMap} (h : Chooses count graph .video m) (h' : Chooses count graph .audio n) :
    ChoosesAll count graph [m, n]

/-- Parts of a plan as the planners connect them. -/
structure Wired (inputs : List Input) (graph : Option (Graph α)) (maps : List StreamMap)
    (options : OutputOptions α) : Prop where
  someInput : inputs ≠ []
  wellFormed : ∀ g, graph = some g → Graph.WellFormed g.nodes g.video g.audio
  /-- Video and sound are different results. -/
  apart : ∀ label, resultOf graph .video = some label → resultOf graph .audio ≠ some label
  chosen : ChoosesAll inputs.length graph maps
  bounded : ∀ input ∈ inputs, input.loop.isSome = true →
    options.shortest = true ∨ options.duration.isSome = true

/-- The results of a well-formed graph are the labels that are made and not read. -/
theorem isResult_iff_of_wellFormed {g : Graph α} (h : Graph.WellFormed g.nodes g.video g.audio)
    (label : String) :
    (∃ stream, resultOf (some g) stream = some label) ↔
      (∃ node ∈ g.nodes, label ∈ node.outputs) ∧ ∀ node ∈ g.nodes, label ∉ node.inputs := by
  rw [h.results label]
  constructor
  · rintro ⟨_ | _, hresult⟩
    · exact .inl hresult
    · exact .inr hresult
  · rintro (hresult | hresult)
    · exact ⟨.video, hresult⟩
    · exact ⟨.audio, hresult⟩

theorem mem_resultsOf {graph : Option (Graph α)} {label : String} :
    label ∈ resultsOf graph ↔ ∃ stream, resultOf graph stream = some label := by
  have hkinds : (∃ stream, resultOf graph stream = some label) ↔
      resultOf graph .video = some label ∨ resultOf graph .audio = some label := by
    constructor
    · rintro ⟨_ | _, h⟩
      · exact .inl h
      · exact .inr h
    · rintro (h | h)
      · exact ⟨_, h⟩
      · exact ⟨_, h⟩
  rw [hkinds]
  cases graph with
  | none => simp [resultsOf, resultOf]
  | some g =>
      rcases g with ⟨nodes, _ | v, _ | a⟩
      · simp [resultsOf, resultOf, Graph.results, Graph.result]
      · simp [resultsOf, resultOf, Graph.results, Graph.result, eq_comm]
      · simp [resultsOf, resultOf, Graph.results, Graph.result, eq_comm]
      · by_cases h : v = a
        · simp [resultsOf, resultOf, Graph.results, Graph.result, h, eq_comm]
        · simp [resultsOf, resultOf, Graph.results, Graph.result, h, @eq_comm _ label]

/-- What a chosen map names is the result of its kind. -/
theorem Chooses.label_eq {count : Nat} {graph : Option (Graph α)} {stream : Stream} {m : StreamMap}
    (h : Chooses count graph stream m) : m.label = resultOf graph stream := by
  cases h with
  | result label h => exact h.symm
  | source n position optional h hn => exact h.symm

theorem Chooses.resolves {count : Nat} {graph : Option (Graph α)} {stream : Stream} {m : StreamMap}
    (h : Chooses count graph stream m) : Resolves (resultsOf graph) count m := by
  cases h with
  | result label h => exact .inl ⟨label, mem_resultsOf.2 ⟨stream, h⟩, rfl⟩
  | source n position optional h hn =>
      refine .inr ⟨rfl, ?_, n, rfl, hn⟩
      cases stream <;> rfl

theorem Chooses.carries {count : Nat} {graph : Option (Graph α)} {stream : Stream} {m : StreamMap}
    (h : Chooses count graph stream m) : Carries graph stream m := by
  cases h with
  | result label h => exact h
  | source n position optional h hn => exact rfl

/-- The labels that the chosen maps name are the results, in order. -/
theorem ChoosesAll.labels {count : Nat} {graph : Option (Graph α)} {maps : List StreamMap}
    (h : ChoosesAll count graph maps) :
    maps.filterMap (·.label) =
      (resultOf graph .video).toList ++ (resultOf graph .audio).toList := by
  cases h with
  | nothing h =>
      subst h
      rfl
  | video h hsilent => cases hvideo : resultOf graph .video <;> simp [h.label_eq, hsilent, hvideo]
  | both h h' =>
      cases hvideo : resultOf graph .video <;> cases haudio : resultOf graph .audio <;>
        simp [h.label_eq, h'.label_eq, hvideo, haudio]

theorem ChoosesAll.resolves {count : Nat} {graph : Option (Graph α)} {maps : List StreamMap}
    (h : ChoosesAll count graph maps) : ∀ m ∈ maps, Resolves (resultsOf graph) count m := by
  cases h with
  | nothing h => simp
  | video h hsilent => simpa using h.resolves
  | both h h' => simpa using ⟨h.resolves, h'.resolves⟩

/-- Every result is named by a map. -/
theorem ChoosesAll.mapped {count : Nat} {graph : Option (Graph α)} {maps : List StreamMap}
    (h : ChoosesAll count graph maps) :
    ∀ label ∈ resultsOf graph, label ∈ maps.filterMap (·.label) := by
  intro label hlabel
  rw [h.labels]
  obtain ⟨stream, hstream⟩ := mem_resultsOf.1 hlabel
  cases stream <;> simp [hstream]

namespace Wired

variable {inputs : List Input} {graph : Option (Graph α)} {maps : List StreamMap}
  {options : OutputOptions α}

/-- The chains of wired parts fit together, also if there are none. -/
theorem linked (h : Wired inputs graph maps options) : Graph.Linked (chainsOf graph) := by
  cases graph with
  | none => exact Graph.linked_nil
  | some g => exact (h.wellFormed g rfl).toLinked

/-- The results of wired parts are the labels that are made and not read. -/
theorem isResult_iff (h : Wired inputs graph maps options) (label : String) :
    (∃ stream, resultOf graph stream = some label) ↔
      (∃ node ∈ chainsOf graph, label ∈ node.outputs) ∧
        ∀ node ∈ chainsOf graph, label ∉ node.inputs := by
  cases graph with
  | none => simp [resultOf, chainsOf]
  | some g => exact isResult_iff_of_wellFormed (h.wellFormed g rfl) label

/-- Every link is the output of some chain. -/
theorem mem_outputs (h : Wired inputs graph maps options) {label : String}
    (hlabel : Links graph label) : label ∈ (chainsOf graph).flatMap (·.outputs) := by
  obtain ⟨hraw, ⟨node, hnode, hread | hmade⟩ | hresult⟩ := hlabel
  · exact h.linked.mem_produced_of_mem_consumed
      (Graph.mem_consumed.2 ⟨⟨node, hnode, hread⟩, hraw⟩)
  · exact List.mem_flatMap.2 ⟨node, hnode, hmade⟩
  · exact List.mem_flatMap.2 ((h.isResult_iff label).1 hresult).1

/-- The labels that the maps name are distinct. -/
theorem nodup_labels (h : Wired inputs graph maps options) : (maps.filterMap (·.label)).Nodup := by
  rw [h.chosen.labels]
  cases hvideo : resultOf graph .video with
  | none => cases resultOf graph .audio <;> simp
  | some v =>
      cases haudio : resultOf graph .audio with
      | none => simp
      | some a =>
          have hne : v ≠ a := by
            rintro rfl
            exact h.apart v hvideo haudio
          simpa using hne

theorem mem_labels_iff (h : Wired inputs graph maps options) {label : String} :
    label ∈ maps.filterMap (·.label) ↔ ∃ stream, resultOf graph stream = some label := by
  rw [h.chosen.labels, List.mem_append, Option.mem_toList, Option.mem_toList]
  constructor
  · rintro (hvideo | haudio)
    · exact ⟨_, hvideo⟩
    · exact ⟨_, haudio⟩
  · rintro ⟨_ | _, hresult⟩
    · exact .inl hresult
    · exact .inr hresult

/-- A link that a chain reads is mapped by nobody; one that no chain reads is a result,
and is mapped once. -/
theorem usedOnce (h : Wired inputs graph maps options) {label : String}
    (hlabel : Links graph label) :
    ((chainsOf graph).flatMap (·.inputs)).count label + (maps.filterMap (·.label)).count label =
      1 := by
  -- Either side of the sum is one, depending on whether a chain reads the link.
  by_cases hread : label ∈ (chainsOf graph).flatMap (·.inputs)
  · obtain ⟨node, hnode, hmem⟩ := List.mem_flatMap.1 hread
    have hunmapped : label ∉ maps.filterMap (·.label) := by
      rw [h.mem_labels_iff, h.isResult_iff]
      exact fun hresult => hresult.2 node hnode hmem
    rw [h.linked.count_inputs_eq_one hlabel.1 hread, List.count_eq_zero_of_not_mem hunmapped]
  · have hresult : ∃ stream, resultOf graph stream = some label := by
      refine (h.isResult_iff label).2 ⟨List.mem_flatMap.1 (h.mem_outputs hlabel), ?_⟩
      exact fun node hnode hmem => hread (List.mem_flatMap.2 ⟨node, hnode, hmem⟩)
    rw [List.count_eq_zero_of_not_mem hread,
      List.count_eq_one_of_mem h.nodup_labels (h.mem_labels_iff.2 hresult)]

/-- The maps of wired parts choose one video and at most one sound. -/
theorem oneVideo (h : Wired inputs graph maps options) :
    maps = [] ∨ ∃ video sound, maps = video :: sound ∧ Carries graph .video video ∧
      sound.length ≤ 1 ∧ ∀ m ∈ sound, Carries graph .audio m := by
  cases h.chosen with
  | nothing => exact .inl rfl
  | video hvideo => exact .inr ⟨_, [], rfl, hvideo.carries, by simp, by simp⟩
  | both hvideo haudio =>
      exact .inr ⟨_, [_], rfl, hvideo.carries, by simp, by simpa using haudio.carries⟩

/-- Maps of wired parts that name no label name an input. -/
theorem mapsExist (h : Wired inputs graph maps options) : ∀ m ∈ maps, m.label = none →
    ∃ n : Nat, m.input = some (n : Int) ∧ n < inputs.length := by
  intro m hm hnone
  rcases h.chosen.resolves m hm with ⟨label, -, hlabel⟩ | ⟨-, -, hinput⟩
  · simp [hnone] at hlabel
  · exact hinput

/-- The plan of wired parts is closed, once its raw labels are readable. -/
theorem closed (h : Wired inputs graph maps options)
    (hreads : Readable inputs.length (reads graph)) (target : String) (estimate : Option α) :
    Closed ⟨inputs, graph, maps, options, target, estimate⟩ where
  readsExist := hreads
  mapsExist := h.mapsExist
  madeOnce _ hlabel := List.count_eq_one_of_mem h.linked.producedOnce (h.mem_outputs hlabel)
  usedOnce _ hlabel := h.usedOnce hlabel
  readLater := h.linked.producedEarlier
  oneVideo := h.oneVideo
  bounded := h.bounded

/-- **Wired parts are assembled to a closed plan.**  No check on the graph, on what it
reads or on the maps refuses them. -/
theorem assemble_ends [Arithmetic α] {bound : Nat} (h : Wired inputs graph maps options)
    (hreads : Numbered bound (reads graph)) (hbound : bound ≤ inputs.length) (target : String)
    (estimate : Option α) :
    Ends Closed (Rejection bound) (assemble inputs graph maps options target estimate) := by
  refine (Plan.assemble_ends inputs graph maps options target estimate h.someInput hreads hbound
    h.chosen.resolves h.chosen.mapped).mono ?_ fun _ hrefused => hrefused.rejection
  rintro plan ⟨rfl, hreads⟩
  exact h.closed hreads target estimate

/-- Wired parts that read a single input make a plan. -/
theorem assemble_eq_ok [Arithmetic α] (h : Wired inputs graph maps options)
    (hreads : Numbered 1 (reads graph)) {target : String} (estimate : Option α)
    (htarget : target ≠ "")
    (hduration : ∀ d, options.duration = some d → Arithmetic.isAtMostZero d = false) :
    assemble inputs graph maps options target estimate =
      .ok ⟨inputs, graph, maps, options, target, estimate⟩ :=
  Plan.assemble_eq_ok estimate h.someInput hreads h.chosen.resolves h.chosen.mapped htarget
    hduration

end Wired

end Plan

end Montage
