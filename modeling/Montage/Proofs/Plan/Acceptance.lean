import Montage.Proofs.Failure
import Montage.Proofs.Plan.SingleUse

/-!
# Exactly which parts make a plan

The assembler looks at the two results that a graph names.  If the graph comes from a builder,
these are the links that some chain makes and no chain reads (`mem_resultsOf_iff_isLoose`), so
that its checks can be said about the chains themselves (`Acceptable`).  Parts are assembled if
and only if they are acceptable, and otherwise refused because they do not fit together
(`assemble_accepts_iff`).
-/

namespace Montage.Plan

variable {α : Type}

/-- There is no graph, or it is one that a builder made. -/
def IsBuilt (graph : Option (Graph α)) : Prop :=
  ∀ built, graph = some built → ∃ chains video audio, Graph.ofChains chains video audio = .ok built

/-- A link that some chain of the graph makes and no chain reads. -/
def IsLoose (graph : Option (Graph α)) (label : String) : Prop :=
  (∃ node ∈ chainsOf graph, label ∈ node.outputs) ∧ ∀ node ∈ chainsOf graph, label ∉ node.inputs

/-- What makes the parts of a plan acceptable, said about the chains of its graph. -/
structure Acceptable [Arithmetic α] (inputs : List Input) (graph : Option (Graph α))
    (maps : List StreamMap) (options : OutputOptions α) (target : String) : Prop where
  someInput : inputs ≠ []
  someTarget : target ≠ ""
  /-- Every raw stream that a chain reads belongs to an input. -/
  readsExist : ∀ node ∈ chainsOf graph, ∀ label ∈ node.inputs, Label.isRaw label = true →
    ∃ n : Nat, Label.rawInput? label = .ok (some (n : Int)) ∧ n < inputs.length
  mapsLoose : ∀ m ∈ maps, ∀ label, m.label = some label → IsLoose graph label
  looseMapped : ∀ label, IsLoose graph label → ∃ m ∈ maps, m.label = some label
  mapsExist : ∀ m ∈ maps, m.label = none →
    (m.stream = some "v" ∨ m.stream = some "a") ∧
      ∃ n, m.input = some n ∧ 0 ≤ n ∧ n < inputs.length
  duration : ∀ d, options.duration = some d → Arithmetic.isAtMostZero d = false

/-- The results of a built graph are its loose links. -/
theorem mem_resultsOf_iff_isLoose {graph : Option (Graph α)} (h : IsBuilt graph) {label : String} :
    label ∈ resultsOf graph ↔ IsLoose graph label := by
  cases graph with
  | none => simp [resultsOf, IsLoose, chainsOf]
  | some built =>
      obtain ⟨chains, video, audio, hbuilt⟩ := h built rfl
      rw [mem_resultsOf, isResult_iff_of_wellFormed (wellFormed_of_ofChains hbuilt)]
      rfl

theorem mem_reads {graph : Option (Graph α)} {label : String} :
    label ∈ reads graph ↔ ∃ node ∈ chainsOf graph, label ∈ node.inputs := by
  cases graph <;> simp [reads, chainsOf]

theorem knowsStream_iff {stream : Option String} :
    knowsStream stream = true ↔ stream = some "v" ∨ stream = some "a" := by
  simp [knowsStream]

/-- More labels are readable only if the rest of them are. -/
theorem Readable.tail {count : Nat} {label : String} {rest : List String}
    (h : Readable count (label :: rest)) : Readable count rest :=
  fun other hother => h other (List.mem_cons_of_mem _ hother)

/-- Why parts are refused: they do not fit together, or one of the labels is too long to be
read. -/
def Misfit (labels : List String) (failure : Failure) : Prop :=
  (∃ cause, failure = .plan cause) ∨
    failure = .fault .badValue ∧ ∃ label ∈ labels, Label.IsOverlong label

theorem Misfit.cons {labels : List String} {failure : Failure} (h : Misfit labels failure)
    (label : String) : Misfit (label :: labels) failure := by
  rcases h with hcause | ⟨hfault, other, hother, hlong⟩
  · exact .inl hcause
  · exact .inr ⟨hfault, other, List.mem_cons_of_mem _ hother, hlong⟩

/-- The check of the raw labels passes exactly if each of them names an input, and fails only
for one that names none or is too long. -/
theorem checkReads_settles (count : Nat) (labels : List String) :
    Ends (fun _ => Readable count labels)
      (fun failure => ¬ Readable count labels ∧ Misfit labels failure)
      (checkReads count labels) := by
  induction labels with
  | nil => exact readable_nil count
  | cons label rest ih =>
      -- A first label that is no obstacle leaves the matter to the rest.
      have hrest (hlabel : Label.isRaw label = true →
          ∃ n : Nat, Label.rawInput? label = .ok (some (n : Int)) ∧ n < count) :
          Ends (fun _ => Readable count (label :: rest))
            (fun failure => ¬ Readable count (label :: rest) ∧ Misfit (label :: rest) failure)
            (checkReads count rest) :=
        ih.mono (fun _ hok => hok.cons hlabel)
          fun _ ⟨hunreadable, hmisfit⟩ => ⟨fun h => hunreadable h.tail, hmisfit.cons label⟩
      unfold checkReads
      rcases Label.rawInput?_cases label with ⟨hraw, hread⟩ | ⟨hraw, ⟨n, hread⟩ | ⟨hlong, hread⟩⟩
      · rw [hread]
        exact hrest (by simp [hraw])
      · simp only [hread]
        split
        · next hmissing =>
            refine ⟨fun h => ?_, .inl ⟨_, rfl⟩⟩
            obtain ⟨m, hm, hlt⟩ := h label List.mem_cons_self hraw
            rw [hread] at hm
            cases hm
            omega
        · next hexists => exact hrest fun _ => ⟨n, hread, by omega⟩
      · rw [hread]
        refine ⟨fun h => ?_, .inr ⟨rfl, label, List.mem_cons_self, hlong⟩⟩
        obtain ⟨m, hm, -⟩ := h label List.mem_cons_self hraw
        rw [hread] at hm
        cases hm

variable [Arithmetic α] {inputs : List Input} {graph : Option (Graph α)} {maps : List StreamMap}
  {options : OutputOptions α} {target : String}

/-- For a built graph the parts agree exactly if they are acceptable. -/
theorem partsAgree_iff_acceptable (h : IsBuilt graph) :
    PartsAgree inputs graph maps options target ↔
      Acceptable inputs graph maps options target := by
  have hreads : checkReads inputs.length (reads graph) = .ok () ↔
      Readable inputs.length (reads graph) := by
    have hsettles := checkReads_settles inputs.length (reads graph)
    cases hresult : checkReads inputs.length (reads graph) with
    | ok =>
        rw [hresult] at hsettles
        exact ⟨fun _ => hsettles, fun _ => rfl⟩
    | error failure =>
        rw [hresult] at hsettles
        exact ⟨nofun, fun hok => absurd hok hsettles.1⟩
  have hreadable : Readable inputs.length (reads graph) ↔
      ∀ node ∈ chainsOf graph, ∀ label ∈ node.inputs, Label.isRaw label = true →
        ∃ n : Nat, Label.rawInput? label = .ok (some (n : Int)) ∧ n < inputs.length :=
    ⟨fun hall node hnode label hlabel => hall label (mem_reads.2 ⟨node, hnode, hlabel⟩),
      fun hall label hlabel => by
        obtain ⟨node, hnode, hmem⟩ := mem_reads.1 hlabel
        exact hall node hnode label hmem⟩
  constructor
  · intro hagree
    refine ⟨hagree.someInput, hagree.someTarget, hreadable.1 (hreads.1 hagree.readsExist), ?_, ?_,
      ?_, hagree.duration⟩
    · intro m hm label hlabel
      exact (mem_resultsOf_iff_isLoose h).1
        (hagree.mem_resultsOf (List.mem_filterMap.2 ⟨m, hm, hlabel⟩))
    · intro label hloose
      exact List.mem_filterMap.1 (hagree.allMapped label ((mem_resultsOf_iff_isLoose h).2 hloose))
    · intro m hm hlabel
      rcases hagree.mapsExist m hm with ⟨label, -, hsome⟩ | ⟨-, hknown, n, hinput, hn⟩
      · rw [hlabel] at hsome
        cases hsome
      · exact ⟨knowsStream_iff.1 hknown, n, hinput, by omega, by omega⟩
  · intro hok
    refine ⟨hok.someInput, hok.someTarget, hreads.2 (hreadable.2 hok.readsExist), ?_, ?_,
      hok.duration⟩
    · intro m hm
      cases hlabel : m.label with
      | some label =>
          have hloose := hok.mapsLoose m hm label hlabel
          exact .inl ⟨label, (mem_resultsOf_iff_isLoose h).2 hloose, hlabel⟩
      | none =>
          obtain ⟨hstream, n, hinput, hn, hlt⟩ := hok.mapsExist m hm hlabel
          refine .inr ⟨hlabel, knowsStream_iff.2 hstream, n.toNat, ?_, by omega⟩
          rw [hinput, Int.toNat_of_nonneg hn]
    · intro label hlabel
      exact List.mem_filterMap.2 (hok.looseMapped label ((mem_resultsOf_iff_isLoose h).1 hlabel))

/-- The assembler refuses only parts that do not fit together, unless it meets a label that is
too long to be read. -/
theorem assemble_fails (estimate : Option α) :
    FailsWith (Misfit (reads graph)) (assemble inputs graph maps options target estimate) := by
  have hreads := (checkReads_settles inputs.length (reads graph)).failsWith
  unfold assemble
  refine .guard (.inl ⟨_, rfl⟩) ?_
  refine .guard (.inl ⟨_, rfl⟩) ?_
  refine .bind (hreads.mono fun failure h => h.2) fun _ => ?_
  refine .bind ?_ fun _ => ?_
  · intro failure hfailure
    generalize checkMaps _ _ maps = checked at hfailure
    cases checked with
    | ok => cases hfailure
    | error cause =>
        cases hfailure
        exact .inl ⟨cause, rfl⟩
  · extract_lets missing finish checked
    have hchecked : FailsWith (Misfit (reads graph)) (checked ()) := by
      simp only [checked]
      cases options.duration with
      | none => exact .ok _
      | some d => exact .ite (.thrown (.inl ⟨_, rfl⟩)) (.ok _)
    exact .ite hchecked (.thrown (.inl ⟨_, rfl⟩))

/-- **Exactly the acceptable parts make a plan.**  With a graph of a builder, or with none, the
assembler succeeds if and only if the parts are acceptable, and the plan holds them as they are;
otherwise they are refused as parts that do not fit together, as long as no raw label has more
digits than a number may have. -/
theorem assemble_accepts_iff (hbuilt : IsBuilt graph) (estimate : Option α) :
    ((∃ plan, assemble inputs graph maps options target estimate = .ok plan) ↔
      Acceptable inputs graph maps options target) ∧
    (∀ plan, assemble inputs graph maps options target estimate = .ok plan →
      plan = ⟨inputs, graph, maps, options, target, estimate⟩) ∧
    ((∀ node ∈ chainsOf graph, ∀ label ∈ node.inputs, ¬ Label.IsOverlong label) →
      ∀ failure, assemble inputs graph maps options target estimate = .error failure →
        ∃ cause, failure = .plan cause) := by
  refine ⟨?_, fun plan => of_assemble, fun hshort failure hfailure => ?_⟩
  · rw [← partsAgree_iff_acceptable hbuilt]
    exact ⟨fun ⟨plan, hplan⟩ => partsAgree_of_assemble hplan,
      fun hagree => ⟨_, hagree.assemble_eq estimate⟩⟩
  · rcases assemble_fails estimate failure hfailure with hcause | ⟨-, label, hlabel, hlong⟩
    · exact hcause
    · obtain ⟨node, hnode, hmem⟩ := mem_reads.1 hlabel
      exact absurd hlong (hshort node hnode label hmem)

/-- Two pictures, of which one is made smaller and laid over the other. -/
def overlaidChains : List (Node Number) :=
  [⟨["1:v"], [⟨"scale", [(none, .text "64:64")]⟩], ["small"]⟩,
    ⟨["0:v", "small"], [⟨"overlay", []⟩], ["v"]⟩]

/-- These chains make a plan with a map of their result, and none with a map of the link between
them. -/
theorem accepts_overlaid :
    IsBuilt (some ⟨overlaidChains, some "v", none⟩) ∧
      Acceptable [{ clip := ⟨"a", "/a"⟩ }, { clip := ⟨"b", "/b"⟩ }]
        (some ⟨overlaidChains, some "v", none⟩) [.ofLabel "v", .ofStream 1 .audio none true]
        { duration := some (.float 5.0) } "out.mp4" ∧
      ¬ Acceptable [{ clip := ⟨"a", "/a"⟩ }, { clip := ⟨"b", "/b"⟩ }]
        (some ⟨overlaidChains, some "v", none⟩) [.ofLabel "v", .ofLabel "small"]
        { duration := some (.float 5.0) } "out.mp4" := by
  have hbuilt : IsBuilt (some (⟨overlaidChains, some "v", none⟩ : Graph Number)) := by
    rintro _ ⟨⟩
    exact ⟨overlaidChains, some "v", none, rfl⟩
  refine ⟨hbuilt, (assemble_accepts_iff hbuilt none).1.1 (Ends.exists_of_toBool ?_), fun hbad => ?_⟩
  · decide +kernel
  · obtain ⟨plan, hplan⟩ := (assemble_accepts_iff hbuilt none).1.2 hbad
    have hfails : (assemble [{ clip := ⟨"a", "/a"⟩ }, { clip := ⟨"b", "/b"⟩ }]
        (some ⟨overlaidChains, some "v", none⟩) [.ofLabel "v", .ofLabel "small"]
        { duration := some (.float 5.0) } "out.mp4" none).toBool = false := by
      decide +kernel
    rw [hplan] at hfails
    cases hfails

end Montage.Plan
