import Montage.Proofs.Graph.WellFormed
import Montage.Proofs.Plan.Closed

/-!
# How often the links of a plan are used

A link is used where a chain reads it and where a map names it.  The builder sees to it that no
link is read twice and that the results are the links that no chain reads, and the assembler
that every result is mapped.  Neither counts the maps: what is read is used once, what is mapped
is used at least once, and every link is used once exactly if no map is repeated
(`uses_of_assemble`).  A repeated map is never refused (`PartsAgree.repeated`).
-/

namespace Montage.Plan

variable {α : Type}

/-- How often chains read a label. -/
def readings (plan : Plan α) (label : String) : Nat :=
  ((chainsOf plan.graph).flatMap (·.inputs)).count label

/-- How often maps name a label. -/
def mappings (plan : Plan α) (label : String) : Nat := (plan.maps.filterMap (·.label)).count label

/-- Maps that pass name results and inputs. -/
theorem of_checkMaps {results : List String} {count : Nat} {maps : List StreamMap}
    (h : checkMaps results count maps = .ok ()) : ∀ m ∈ maps, Resolves results count m := by
  induction maps with
  | nil => simp
  | cons m rest ih =>
      unfold checkMaps at h
      refine List.forall_mem_cons.2 ?_
      cases hlabel : m.label with
      | some label =>
          simp only [hlabel] at h
          split at h
          · next hresult => exact ⟨.inl ⟨label, by simpa using hresult, hlabel⟩, ih h⟩
          · cases h
      | none =>
          simp only [hlabel] at h
          split at h
          · cases h
          · next n hinput =>
              split at h
              · cases h
              · next hknown =>
                  split at h
                  · next hbounds =>
                      simp only [Bool.and_eq_true, decide_eq_true_eq] at hbounds
                      refine ⟨.inr ⟨hlabel, by simpa using hknown, n.toNat, ?_, ?_⟩, ih h⟩
                      · rw [hinput, Int.toNat_of_nonneg hbounds.1]
                      · omega
                  · cases h

/-- What the assembler asks of the parts of a plan. -/
structure PartsAgree [Arithmetic α] (inputs : List Input) (graph : Option (Graph α))
    (maps : List StreamMap) (options : OutputOptions α) (target : String) : Prop where
  someInput : inputs ≠ []
  someTarget : target ≠ ""
  readsExist : checkReads inputs.length (reads graph) = .ok ()
  mapsExist : ∀ m ∈ maps, Resolves (resultsOf graph) inputs.length m
  allMapped : ∀ label ∈ resultsOf graph, label ∈ maps.filterMap (·.label)
  duration : ∀ d, options.duration = some d → Arithmetic.isAtMostZero d = false

variable [Arithmetic α] {inputs : List Input} {graph : Option (Graph α)} {maps : List StreamMap}
  {options : OutputOptions α} {target : String} {estimate : Option α} {plan : Plan α}

/-- Parts that agree are assembled. -/
theorem PartsAgree.assemble_eq (h : PartsAgree inputs graph maps options target)
    (estimate : Option α) :
    assemble inputs graph maps options target estimate =
      .ok ⟨inputs, graph, maps, options, target, estimate⟩ := by
  have htarget : ¬ target.isEmpty = true := by simpa using h.someTarget
  have houtput : checkOutput options target = .ok () := by
    rw [checkOutput, if_neg htarget]
    cases hduration : options.duration with
    | none => rfl
    | some d =>
        simp only [h.duration d hduration]
        rfl
  rw [assemble_eq_checkOutput h.someInput h.readsExist h.mapsExist h.allMapped, houtput]
  rfl

/-- What is assembled agrees. -/
theorem partsAgree_of_assemble
    (h : assemble inputs graph maps options target estimate = .ok plan) :
    PartsAgree inputs graph maps options target := by
  unfold assemble at h
  obtain ⟨hinputs, h⟩ := Ends.of_guard_ok h
  obtain ⟨htarget, h⟩ := Ends.of_guard_ok h
  obtain ⟨⟨⟩, hreads, h⟩ := Ends.of_bind_ok h
  obtain ⟨⟨⟩, hmaps, h⟩ := Ends.of_bind_ok h
  have hchecked : checkMaps (resultsOf graph) inputs.length maps = .ok () := by
    change (checkMaps (resultsOf graph) inputs.length maps).mapError Failure.plan = .ok () at hmaps
    cases hresult : checkMaps (resultsOf graph) inputs.length maps with
    | ok => rfl
    | error cause =>
        rw [hresult] at hmaps
        cases hmaps
  change (if (unmapped (resultsOf graph) maps).isEmpty = true then _ else _) = _ at h
  split at h
  · next hall =>
      refine ⟨by simpa using hinputs, by simpa using htarget, hreads, of_checkMaps hchecked, ?_, ?_⟩
      · intro label hlabel
        have hnone : unmapped (resultsOf graph) maps = [] := List.isEmpty_iff.1 hall
        by_contra hmissing
        have hmem : label ∈ unmapped (resultsOf graph) maps :=
          List.mem_filter.2 ⟨hlabel, by simpa using hmissing⟩
        rw [hnone] at hmem
        cases hmem
      · intro d hduration
        rw [hduration] at h
        cases hzero : Arithmetic.isAtMostZero d with
        | false => rfl
        | true =>
            simp only [hzero, if_true] at h
            cases h
  · cases h

/-- A map that is there may be repeated. -/
theorem PartsAgree.repeated (h : PartsAgree inputs graph maps options target) {m : StreamMap}
    (hm : m ∈ maps) : PartsAgree inputs graph (maps ++ [m]) options target where
  someInput := h.someInput
  someTarget := h.someTarget
  readsExist := h.readsExist
  mapsExist other hother := by
    rcases List.mem_append.1 hother with hother | hother
    · exact h.mapsExist other hother
    · rw [List.mem_singleton.1 hother]
      exact h.mapsExist m hm
  allMapped label hlabel := by
    rw [List.filterMap_append]
    exact List.mem_append_left _ (h.allMapped label hlabel)
  duration := h.duration

section

variable {chains : List (Node α)} {video audio : Option String} {built : Graph α}

omit [Arithmetic α]

/-- What the builder returns is well-formed. -/
theorem wellFormed_of_ofChains (h : Graph.ofChains chains video audio = .ok built) :
    Graph.WellFormed built.nodes built.video built.audio := by
  obtain ⟨b, htaken, hbuilt⟩ := Ends.of_bind_ok h
  obtain ⟨hlinked, rfl⟩ := (Builder.takeAll_empty chains b).1 htaken
  obtain ⟨hwf, rfl⟩ := (hlinked.build_noted_iff video audio built).1 hbuilt
  exact hwf

/-- The results are the links that no chain reads. -/
theorem mem_resultsOf_iff_unread (h : Graph.WellFormed built.nodes built.video built.audio)
    {label : String} :
    label ∈ resultsOf (some built) ↔
      label ∈ Graph.produced built.nodes ∧ label ∉ built.nodes.flatMap (·.inputs) := by
  have hread : label ∉ built.nodes.flatMap (·.inputs) ↔
      ∀ node ∈ built.nodes, label ∉ node.inputs := by simp
  rw [hread, Graph.mem_produced, mem_resultsOf, isResult_iff_of_wellFormed h]

end

/-- The labels that maps name are results. -/
theorem PartsAgree.mem_resultsOf (h : PartsAgree inputs graph maps options target) {label : String}
    (hlabel : label ∈ maps.filterMap (·.label)) : label ∈ resultsOf graph := by
  obtain ⟨m, hm, hmlabel⟩ := List.mem_filterMap.1 hlabel
  rcases h.mapsExist m hm with ⟨other, hother, hmother⟩ | ⟨hnone, -⟩
  · cases hmlabel.symm.trans hmother
    exact hother
  · rw [hnone] at hmlabel
    cases hmlabel

variable {chains : List (Node α)} {video audio : Option String} {built : Graph α}

/-- A link of a plan is read once and not mapped, or not read and mapped. -/
theorem read_or_mapped (hbuilt : Graph.WellFormed built.nodes built.video built.audio)
    (h : PartsAgree inputs (some built) maps options target) {label : String}
    (hmade : label ∈ Graph.produced built.nodes) :
    ((built.nodes.flatMap (·.inputs)).count label = 1 ∧
        (maps.filterMap (·.label)).count label = 0) ∨
      ((built.nodes.flatMap (·.inputs)).count label = 0 ∧
        1 ≤ (maps.filterMap (·.label)).count label) := by
  obtain ⟨maker, hmaker, hout⟩ := Graph.mem_produced.1 hmade
  have hraw : Label.isRaw label = false := hbuilt.notRaw maker hmaker label hout
  by_cases hread : label ∈ built.nodes.flatMap (·.inputs)
  · refine .inl ⟨hbuilt.toLinked.count_inputs_eq_one hraw hread, ?_⟩
    refine List.count_eq_zero_of_not_mem fun hmapped => ?_
    exact ((mem_resultsOf_iff_unread hbuilt).1 (h.mem_resultsOf hmapped)).2 hread
  · refine .inr ⟨List.count_eq_zero_of_not_mem hread, List.count_pos_iff.2 ?_⟩
    exact h.allMapped label ((mem_resultsOf_iff_unread hbuilt).2 ⟨hmade, hread⟩)

/-- **What the assembler guarantees about the links of a plan.**  Of a plan that is assembled
from a graph of the builder, every link is read by one chain behind the one that makes it and not
mapped, or not read and mapped.  Every link is used once exactly if no label is mapped twice, and
this is not checked: with any of its maps repeated the plan is assembled again. -/
theorem uses_of_assemble (hbuilt : Graph.ofChains chains video audio = .ok built)
    (hplan : assemble inputs (some built) maps options target estimate = .ok plan) :
    (∀ label ∈ Graph.produced built.nodes,
      (plan.readings label = 1 ∧ plan.mappings label = 0) ∨
        (plan.readings label = 0 ∧ 1 ≤ plan.mappings label)) ∧
    (∀ before node after, built.nodes = before ++ node :: after → ∀ label ∈ node.inputs,
      label ∈ Graph.produced built.nodes → label ∈ Graph.produced before) ∧
    ((∀ label ∈ Graph.produced built.nodes, plan.readings label + plan.mappings label = 1) ↔
      (maps.filterMap (·.label)).Nodup) ∧
    ∀ m ∈ maps, assemble inputs (some built) (maps ++ [m]) options target estimate =
      .ok { plan with maps := maps ++ [m] } := by
  have hwf := wellFormed_of_ofChains hbuilt
  have hagree := partsAgree_of_assemble hplan
  obtain rfl := of_assemble hplan
  have huse (label : String) (hmade : label ∈ Graph.produced built.nodes) :=
    read_or_mapped hwf hagree hmade
  refine ⟨huse, ?_, ?_, fun m hm => (hagree.repeated hm).assemble_eq estimate⟩
  · intro before node after heq label hlabel hmade
    obtain ⟨maker, hmaker, hout⟩ := Graph.mem_produced.1 hmade
    exact Graph.mem_produced.2 (hwf.producedEarlier before node after heq label hlabel
      (hwf.notRaw maker hmaker label hout))
  · rw [List.nodup_iff_count_le_one]
    constructor
    · -- A label that maps name is a result, so that the maps are all its uses.
      intro honce label
      by_cases hmapped : label ∈ maps.filterMap (·.label)
      · have hmade := ((mem_resultsOf_iff_unread hwf).1 (hagree.mem_resultsOf hmapped)).1
        have hone := honce label hmade
        change _ + (maps.filterMap (·.label)).count label = 1 at hone
        omega
      · rw [List.count_eq_zero_of_not_mem hmapped]
        exact Nat.zero_le 1
    · intro hatMost label hmade
      have hone := hatMost label
      change (built.nodes.flatMap (·.inputs)).count label +
        (maps.filterMap (·.label)).count label = 1
      rcases huse label hmade with ⟨hread, hmapped⟩ | ⟨hread, hmapped⟩
      · omega
      · omega

/-- A chain that flips a picture. -/
def flipChain : Node Number := ⟨["0:v"], [⟨"hflip", []⟩], ["v"]⟩

/-- The one result of this chain may be mapped twice. -/
theorem uses_of_assemble_flip :
    Graph.ofChains [flipChain] (some "v") none = .ok ⟨[flipChain], some "v", none⟩ ∧
      (assemble [{ clip := ⟨"a", "/a"⟩ }] (some ⟨[flipChain], some "v", none⟩)
          [.ofLabel "v", .ofLabel "v"] {} "out.mp4" none).toBool = true := by
  have hbuilt : Graph.ofChains [flipChain] (some "v") none = .ok ⟨[flipChain], some "v", none⟩ := by
    rfl
  have hmade : (assemble [{ clip := ⟨"a", "/a"⟩ }] (some ⟨[flipChain], some "v", none⟩)
      [.ofLabel "v"] {} "out.mp4" none).toBool = true := by decide +kernel
  obtain ⟨plan, hplan⟩ := Ends.exists_of_toBool hmade
  have hagain := (uses_of_assemble hbuilt hplan).2.2.2 (.ofLabel "v") List.mem_cons_self
  exact ⟨hbuilt, congrArg Except.toBool hagain⟩

end Montage.Plan
