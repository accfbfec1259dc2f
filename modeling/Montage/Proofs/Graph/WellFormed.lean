import Montage.Proofs.Graph.Builder

/-!
# Well-formed graphs

The builder checks one label at a time against the notes it has made so far.  Here the
graphs it accepts are described as a whole, without any order of checking: `Linked`
says that the chains fit together, and `WellFormed` adds that the results are exactly
the labels nobody reads.

The bridge is an invariant: as long as nothing was refused, the builder's notes are
the ones `noted` collects from its chains (`takeAll_noted`).  The main statement,
`ofChains_eq_ok_iff`, says that the builder accepts exactly the well-formed lists of
chains and returns them unchanged.
-/

namespace Montage

variable {α : Type}

namespace Graph

/-- Chains that fit together: each has a filter, reads only links that chains before
it produce, and no link is produced or read twice or is named like a raw stream. -/
structure Linked (chains : List (Node α)) : Prop where
  hasFilter : ∀ node ∈ chains, node.filters ≠ []
  producedEarlier : ∀ before node after, chains = before ++ node :: after →
    ∀ label ∈ node.inputs, Label.isRaw label = false →
      ∃ earlier ∈ before, label ∈ earlier.outputs
  readOnce : (Label.links (chains.flatMap (·.inputs))).Nodup
  notRaw : ∀ node ∈ chains, ∀ label ∈ node.outputs, Label.isRaw label = false
  producedOnce : (chains.flatMap (·.outputs)).Nodup

/-- Chains that fit together and whose results are the links that no chain reads. -/
structure WellFormed (chains : List (Node α)) (video audio : Option String) : Prop
    extends Linked chains where
  nonempty : chains ≠ []
  results : ∀ label,
    ((∃ node ∈ chains, label ∈ node.outputs) ∧ ∀ node ∈ chains, label ∉ node.inputs) ↔
      video = some label ∨ audio = some label

/-- One more chain fits behind others: its links are theirs and still unread, and its
outputs are new. -/
structure Fits (chains : List (Node α)) (node : Node α) : Prop where
  hasFilter : node.filters ≠ []
  unread : ∀ label ∈ Label.links node.inputs, label ∈ produced chains ∧ label ∉ consumed chains
  distinct : (Label.links node.inputs).Nodup
  new : ∀ label ∈ node.outputs, label ∉ produced chains ∧ Label.isRaw label = false
  nodup : node.outputs.Nodup

theorem mem_produced {chains : List (Node α)} {label : String} :
    label ∈ produced chains ↔ ∃ node ∈ chains, label ∈ node.outputs := by
  simp [produced]

theorem mem_consumed {chains : List (Node α)} {label : String} :
    label ∈ consumed chains ↔
      (∃ node ∈ chains, label ∈ node.inputs) ∧ Label.isRaw label = false := by
  simp [consumed, Label.mem_links]

theorem linked_nil : Linked ([] : List (Node α)) := by
  constructor <;> simp [Label.links]

/-- Chains that fit together still do so when the last ones are left off. -/
theorem Linked.of_append {before after : List (Node α)} (h : Linked (before ++ after)) :
    Linked before where
  hasFilter node hnode := h.hasFilter node (List.mem_append_left _ hnode)
  producedEarlier front node back heq :=
    h.producedEarlier front node (back ++ after) (by simp [heq])
  readOnce := by
    have := h.readOnce
    rw [List.flatMap_append, Label.links_append] at this
    exact this.of_append_left
  notRaw node hnode := h.notRaw node (List.mem_append_left _ hnode)
  producedOnce := by
    have := h.producedOnce
    rw [List.flatMap_append] at this
    exact this.of_append_left

/-- The links that are read are all produced. -/
theorem Linked.mem_produced_of_mem_consumed {chains : List (Node α)} (h : Linked chains)
    {label : String} (hlabel : label ∈ consumed chains) : label ∈ produced chains := by
  obtain ⟨⟨node, hnode, hread⟩, hraw⟩ := mem_consumed.1 hlabel
  obtain ⟨before, after, rfl⟩ := List.append_of_mem hnode
  obtain ⟨earlier, hearlier, hmade⟩ := h.producedEarlier before node after rfl label hread hraw
  exact mem_produced.2 ⟨earlier, List.mem_append_left _ hearlier, hmade⟩

/-- A link that is read is read once. -/
theorem Linked.count_inputs_eq_one {chains : List (Node α)} (h : Linked chains) {label : String}
    (hraw : Label.isRaw label = false) (hread : label ∈ chains.flatMap (·.inputs)) :
    (chains.flatMap (·.inputs)).count label = 1 := by
  have honce : (Label.links (chains.flatMap (·.inputs))).count label = 1 :=
    List.count_eq_one_of_mem h.readOnce (Label.mem_links.2 ⟨hread, hraw⟩)
  rwa [Label.links, List.count_filter (by simp [hraw])] at honce

/-- Chains fit together exactly if all but the last do and the last fits behind
them. -/
theorem linked_concat_iff (chains : List (Node α)) (node : Node α) :
    Linked (chains ++ [node]) ↔ Linked chains ∧ Fits chains node := by
  constructor
  · intro h
    have hread := h.readOnce
    have hmade := h.producedOnce
    simp only [List.flatMap_append, Label.links_append, List.flatMap_singleton] at hread hmade
    obtain ⟨-, hdistinct, hapart⟩ := List.nodup_append.1 hread
    obtain ⟨-, hnodup, hfresh⟩ := List.nodup_append.1 hmade
    refine ⟨h.of_append, h.hasFilter node (by simp), ?_, hdistinct, ?_, hnodup⟩
    · intro label hlabel
      obtain ⟨hmem, hraw⟩ := Label.mem_links.1 hlabel
      refine ⟨mem_produced.2 (h.producedEarlier chains node [] rfl label hmem hraw), ?_⟩
      intro hbefore
      exact hapart label hbefore label hlabel rfl
    · intro label hlabel
      refine ⟨?_, h.notRaw node (by simp) label hlabel⟩
      intro hbefore
      exact hfresh label hbefore label hlabel rfl
  · rintro ⟨h, hfits⟩
    refine ⟨?_, ?_, ?_, ?_, ?_⟩
    · intro other hother
      rcases List.mem_append.1 hother with hother | hother
      · exact h.hasFilter other hother
      · rw [List.mem_singleton.1 hother]
        exact hfits.hasFilter
    · intro before other after heq label hlabel hraw
      rcases split_concat heq with ⟨rfl, rfl, -⟩ | ⟨front, -, rfl⟩
      · -- The chain in question is the last one.
        exact mem_produced.1 (hfits.unread label (Label.mem_links.2 ⟨hlabel, hraw⟩)).1
      · -- It is one of the chains before, and so is whatever comes before it.
        exact h.producedEarlier before other front rfl label hlabel hraw
    · rw [List.flatMap_append, Label.links_append, List.flatMap_singleton]
      refine List.nodup_append.2 ⟨h.readOnce, hfits.distinct, ?_⟩
      rintro label hbefore _ hlabel rfl
      exact (hfits.unread label hlabel).2 hbefore
    · intro other hother
      rcases List.mem_append.1 hother with hother | hother
      · exact h.notRaw other hother
      · rw [List.mem_singleton.1 hother]
        exact fun label hlabel => (hfits.new label hlabel).2
    · rw [List.flatMap_append, List.flatMap_singleton]
      refine List.nodup_append.2 ⟨h.producedOnce, hfits.nodup, ?_⟩
      rintro label hbefore _ hlabel rfl
      exact (hfits.new label hlabel).1 hbefore

end Graph

namespace Builder

/-- Take several chains one after another, or stop at the first refusal. -/
def takeAll (b : Builder α) : List (Node α) → Except PlanCause (Builder α)
  | [] => .ok b
  | node :: rest => do
    let b ← b.chain node.inputs node.filters node.outputs
    b.takeAll rest

/-- Behind chains that it took, a builder takes exactly the chains that fit. -/
theorem chain_noted (chains : List (Node α)) (node : Node α) (b : Builder α) :
    (noted chains).chain node.inputs node.filters node.outputs = .ok b ↔
      Graph.Fits chains node ∧ b = noted (chains ++ [node]) := by
  rw [chain_eq_ok_iff]
  simp only [noted, Graph.produced_append, Graph.consumed_append, Graph.produced_singleton,
    Graph.consumed_singleton]
  constructor
  · rintro ⟨hfilter, hunread, hdistinct, hnew, hnodup, rfl⟩
    exact ⟨⟨hfilter, hunread, hdistinct, hnew, hnodup⟩, rfl⟩
  · rintro ⟨⟨hfilter, hunread, hdistinct, hnew, hnodup⟩, rfl⟩
    exact ⟨hfilter, hunread, hdistinct, hnew, hnodup, rfl⟩

/-- The run of a builder: it takes further chains exactly if all of them fit together,
and then holds the notes of all. -/
theorem takeAll_noted (chains rest : List (Node α)) (h : Graph.Linked chains) (b : Builder α) :
    (noted chains).takeAll rest = .ok b ↔
      Graph.Linked (chains ++ rest) ∧ b = noted (chains ++ rest) := by
  induction rest generalizing chains with
  | nil => simp [takeAll, h, eq_comm]
  | cons node rest ih =>
      have hsplit : chains ++ node :: rest = (chains ++ [node]) ++ rest := by simp
      cases hstep : (noted chains).chain node.inputs node.filters node.outputs with
      | error cause =>
          -- A refused chain does not fit, and no chain behind it can make up for that.
          have hunfit : ¬ Graph.Fits chains node := by
            intro hfits
            rw [(chain_noted chains node _).2 ⟨hfits, rfl⟩] at hstep
            cases hstep
          have hbroken : ¬ Graph.Linked (chains ++ node :: rest) := by
            rw [hsplit]
            intro hlinked
            exact hunfit ((Graph.linked_concat_iff chains node).1 hlinked.of_append).2
          simp [takeAll, hstep, hbroken, bind, Except.bind]
      | ok next =>
          obtain ⟨hfits, rfl⟩ := (chain_noted chains node next).1 hstep
          have hlinked := (Graph.linked_concat_iff chains node).2 ⟨h, hfits⟩
          simp only [takeAll, hstep, bind, Except.bind, ih _ hlinked, ← hsplit]

/-- A new builder takes exactly the chains that fit together. -/
theorem takeAll_empty (chains : List (Node α)) (b : Builder α) :
    empty.takeAll chains = .ok b ↔ Graph.Linked chains ∧ b = noted chains := by
  simpa [noted_nil] using takeAll_noted [] chains Graph.linked_nil b

end Builder

namespace Graph

/-- The graph that a new builder makes of several chains and the given results. -/
def ofChains (chains : List (Node α)) (video audio : Option String) :
    Except PlanCause (Graph α) := do
  let b ← Builder.empty.takeAll chains
  b.build video audio

/-- The labels that a builder leaves over are the outputs that no chain reads. -/
theorem Linked.mem_terminals {chains : List (Node α)} (h : Linked chains) {label : String} :
    label ∈ (Builder.noted chains).terminals ↔
      (∃ node ∈ chains, label ∈ node.outputs) ∧ ∀ node ∈ chains, label ∉ node.inputs := by
  rw [Builder.mem_terminals]
  simp only [Builder.noted, mem_produced, mem_consumed]
  constructor
  · rintro ⟨⟨node, hnode, hlabel⟩, hunread⟩
    refine ⟨⟨node, hnode, hlabel⟩, fun other hother hread => ?_⟩
    exact hunread ⟨⟨other, hother, hread⟩, h.notRaw node hnode label hlabel⟩
  · rintro ⟨hmade, hunread⟩
    refine ⟨hmade, ?_⟩
    rintro ⟨⟨node, hnode, hread⟩, -⟩
    exact hunread node hnode hread

/-- The results of chains that fit together are accepted exactly if all is
well-formed. -/
theorem Linked.build_noted_iff {chains : List (Node α)} (h : Linked chains)
    (video audio : Option String) (graph : Graph α) :
    (Builder.noted chains).build video audio = .ok graph ↔
      WellFormed chains video audio ∧ graph = ⟨chains, video, audio⟩ := by
  rw [Builder.build_eq_ok_iff]
  simp only [h.mem_terminals]
  exact ⟨fun ⟨hne, hresults, hgraph⟩ => ⟨⟨h, hne, hresults⟩, hgraph⟩,
    fun ⟨hwf, hgraph⟩ => ⟨hwf.nonempty, hwf.results, hgraph⟩⟩

/-- **The builder accepts exactly the well-formed graphs.**  A new builder takes all
chains and then the results if and only if they are well-formed, and the graph it
returns holds these chains in this order and these results. -/
theorem ofChains_eq_ok_iff (chains : List (Node α)) (video audio : Option String)
    (graph : Graph α) :
    ofChains chains video audio = .ok graph ↔
      WellFormed chains video audio ∧ graph = ⟨chains, video, audio⟩ := by
  cases htake : Builder.empty.takeAll chains with
  | error cause =>
      have hbroken : ¬ Linked chains := by
        intro h
        rw [(Builder.takeAll_empty chains _).2 ⟨h, rfl⟩] at htake
        cases htake
      simp only [ofChains, htake, bind, Except.bind, reduceCtorEq, false_iff, not_and]
      exact fun hwf => absurd hwf.toLinked hbroken
  | ok b =>
      obtain ⟨h, rfl⟩ := (Builder.takeAll_empty chains b).1 htake
      simp only [ofChains, htake, bind, Except.bind, h.build_noted_iff]

end Graph

end Montage
