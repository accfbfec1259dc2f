import Mathlib.Data.List.Nodup
import Montage.Graph.Builder

/-!
# What a builder accepts

A builder looks at one label at a time and keeps two lists of notes.  This module
says for every operation exactly when it succeeds and which builder it leaves: first
for one label, then for the labels of a chain, for a chain, and for the choice of the
results.  A builder that has refused nothing holds the notes `noted chains` of the
chains it took, and it takes one more exactly if that chain `Fits` behind them.
-/

namespace Montage

variable {α : Type}

namespace Label

/-- The labels that some chain has to produce: all but the raw streams. -/
def links (labels : List String) : List String := labels.filter fun label => !isRaw label

theorem mem_links {label : String} {labels : List String} :
    label ∈ links labels ↔ label ∈ labels ∧ isRaw label = false := by
  simp [links]

theorem links_append (before after : List String) :
    links (before ++ after) = links before ++ links after := by
  simp [links]

theorem links_cons_of_raw {label : String} (h : isRaw label = true) (rest : List String) :
    links (label :: rest) = links rest := by
  simp [links, h]

theorem links_cons_of_not_raw {label : String} (h : isRaw label = false) (rest : List String) :
    links (label :: rest) = label :: links rest := by
  simp [links, h]

end Label

namespace Graph

/-- The labels that chains produce, in order. -/
def produced (chains : List (Node α)) : List String := chains.flatMap (·.outputs)

/-- The labels of other chains that chains read, in order. -/
def consumed (chains : List (Node α)) : List String :=
  Label.links (chains.flatMap (·.inputs))

theorem produced_append (before after : List (Node α)) :
    produced (before ++ after) = produced before ++ produced after := by
  simp [produced]

theorem consumed_append (before after : List (Node α)) :
    consumed (before ++ after) = consumed before ++ consumed after := by
  simp [consumed, Label.links_append]

theorem produced_singleton (node : Node α) : produced [node] = node.outputs := by
  simp [produced]

theorem consumed_singleton (node : Node α) : consumed [node] = Label.links node.inputs := by
  simp [consumed]

/-- A chain among several and one more is the last one, or it stands among those before. -/
theorem split_concat {chains before after : List (Node α)} {node other : Node α}
    (h : chains ++ [node] = before ++ other :: after) :
    (before = chains ∧ other = node ∧ after = []) ∨
      ∃ front, after = front ++ [node] ∧ chains = before ++ other :: front := by
  rcases List.eq_nil_or_concat after with rfl | ⟨front, last, rfl⟩
  · obtain ⟨rfl, hlast⟩ := List.append_inj' h rfl
    exact .inl ⟨rfl, (List.cons.inj hlast).1.symm, rfl⟩
  · simp only [List.concat_eq_append] at h ⊢
    rw [← List.cons_append, ← List.append_assoc] at h
    obtain ⟨hfront, hlast⟩ := List.append_inj' h rfl
    exact .inr ⟨front, by rw [(List.cons.inj hlast).1], hfront⟩

end Graph

namespace Builder

/-- The notes of a builder that took the given chains and refused none. -/
def noted (chains : List (Node α)) : Builder α :=
  ⟨chains, Graph.produced chains, Graph.consumed chains⟩

theorem noted_nil : noted ([] : List (Node α)) = empty := rfl

/-- Reading one label changes nothing if it is raw; otherwise it has to be produced
and unread, and is noted. -/
theorem consume_eq_ok_iff (b b' : Builder α) (label : String) :
    b.consume label = .ok b' ↔
      (Label.isRaw label = true ∧ b' = b) ∨
        (Label.isRaw label = false ∧ label ∈ b.produced ∧ label ∉ b.consumed ∧
          b' = { b with consumed := b.consumed ++ [label] }) := by
  unfold consume
  rw [@eq_comm _ b' b, @eq_comm _ b']
  split_ifs with hraw hproduced hconsumed
  · simp [hraw]
  · simp_all
  · simp_all
  · simp_all

/-- Producing one label needs a name that is neither raw nor taken, and notes it. -/
theorem produce_eq_ok_iff (b b' : Builder α) (label : String) :
    b.produce label = .ok b' ↔
      label ∉ b.produced ∧ Label.isRaw label = false ∧
        b' = { b with produced := b.produced ++ [label] } := by
  unfold produce
  rw [@eq_comm _ b']
  split_ifs with h
  · simp only [Bool.or_eq_true, List.contains_iff_mem] at h
    simp only [false_iff, not_and]
    intro hfresh hraw
    rcases h with h | h
    · exact absurd h hfresh
    · simp [hraw] at h
  · simp only [Bool.or_eq_true, List.contains_iff_mem, not_or, Bool.not_eq_true] at h
    simp [h]

/-- Noting labels goes through if the first passes and the others do behind it. -/
theorem note_cons_eq_ok_iff (step : Builder α → String → Except PlanCause (Builder α))
    (b b' : Builder α) (label : String) (rest : List String) :
    note step b (label :: rest) = (b', .ok ()) ↔
      ∃ next, step b label = .ok next ∧ note step next rest = (b', .ok ()) := by
  cases hstep : step b label with
  | error cause => simp [note, hstep]
  | ok next => simp [note, hstep]

/-- The inputs of a chain are read if each link among them is produced and unread,
and none is named twice. -/
theorem note_consume_eq_ok_iff (labels : List String) (b b' : Builder α) :
    note consume b labels = (b', .ok ()) ↔
      (∀ label ∈ Label.links labels, label ∈ b.produced ∧ label ∉ b.consumed) ∧
        (Label.links labels).Nodup ∧
        b' = { b with consumed := b.consumed ++ Label.links labels } := by
  induction labels generalizing b with
  | nil => simp [note, Label.links, @eq_comm _ b']
  | cons label rest ih =>
      rw [note_cons_eq_ok_iff]
      cases hraw : Label.isRaw label with
      | true =>
          have hstep : b.consume label = .ok b := by simp [consume, hraw]
          rw [Label.links_cons_of_raw hraw, ← ih]
          simp [hstep]
      | false =>
          rw [Label.links_cons_of_not_raw hraw]
          constructor
          · -- What the rest finds unread was unread before this label was noted, too.
            rintro ⟨next, hstep, hrest⟩
            obtain ⟨h, -⟩ | ⟨-, hmade, hunread, rfl⟩ := (consume_eq_ok_iff _ _ _).1 hstep
            · simp [hraw] at h
            · obtain ⟨hall, hnodup, rfl⟩ := (ih _).1 hrest
              have hfresh : label ∉ Label.links rest := fun h => (hall label h).2 (by simp)
              refine ⟨?_, List.nodup_cons.2 ⟨hfresh, hnodup⟩, by simp⟩
              intro l hl
              rcases List.mem_cons.1 hl with rfl | hl
              · exact ⟨hmade, hunread⟩
              · exact ⟨(hall l hl).1, fun h => (hall l hl).2 (by simp [h])⟩
          · rintro ⟨hall, hnodup, rfl⟩
            obtain ⟨hfresh, hnodup⟩ := List.nodup_cons.1 hnodup
            obtain ⟨hmade, hunread⟩ := hall label (by simp)
            refine ⟨{ b with consumed := b.consumed ++ [label] },
              (consume_eq_ok_iff _ _ _).2 (.inr ⟨hraw, hmade, hunread, rfl⟩), ?_⟩
            refine (ih _).2 ⟨fun l hl => ?_, hnodup, by simp⟩
            obtain ⟨hl₁, hl₂⟩ := hall l (List.mem_cons_of_mem _ hl)
            have hne : l ≠ label := fun h => hfresh (h ▸ hl)
            exact ⟨hl₁, by simp [hl₂, hne]⟩

/-- The outputs of a chain are named if no name is raw, taken or given twice. -/
theorem note_produce_eq_ok_iff (labels : List String) (b b' : Builder α) :
    note produce b labels = (b', .ok ()) ↔
      (∀ label ∈ labels, label ∉ b.produced ∧ Label.isRaw label = false) ∧
        labels.Nodup ∧ b' = { b with produced := b.produced ++ labels } := by
  induction labels generalizing b with
  | nil => simp [note, @eq_comm _ b']
  | cons label rest ih =>
      rw [note_cons_eq_ok_iff]
      constructor
      · rintro ⟨next, hstep, hrest⟩
        obtain ⟨hnew, hraw, rfl⟩ := (produce_eq_ok_iff _ _ _).1 hstep
        obtain ⟨hall, hnodup, rfl⟩ := (ih _).1 hrest
        have hfresh : label ∉ rest := fun h => (hall label h).1 (by simp)
        refine ⟨?_, List.nodup_cons.2 ⟨hfresh, hnodup⟩, by simp⟩
        intro l hl
        rcases List.mem_cons.1 hl with rfl | hl
        · exact ⟨hnew, hraw⟩
        · exact ⟨fun h => (hall l hl).1 (by simp [h]), (hall l hl).2⟩
      · rintro ⟨hall, hnodup, rfl⟩
        obtain ⟨hfresh, hnodup⟩ := List.nodup_cons.1 hnodup
        obtain ⟨hnew, hraw⟩ := hall label (by simp)
        refine ⟨{ b with produced := b.produced ++ [label] },
          (produce_eq_ok_iff _ _ _).2 ⟨hnew, hraw, rfl⟩, ?_⟩
        refine (ih _).2 ⟨fun l hl => ?_, hnodup, by simp⟩
        obtain ⟨hl₁, hl₂⟩ := hall l (List.mem_cons_of_mem _ hl)
        have hne : l ≠ label := fun h => hfresh (h ▸ hl)
        exact ⟨by simp [hl₁, hne], hl₂⟩

/-- Taking a chain is noting its inputs, then its outputs, then the chain itself. -/
theorem chain_eq_ok_iff_note (b b' : Builder α) (inputs : List String)
    (filters : List (Filter α)) (outputs : List String) :
    b.chain inputs filters outputs = .ok b' ↔
      filters ≠ [] ∧ ∃ read named, note consume b inputs = (read, .ok ()) ∧
        note produce read outputs = (named, .ok ()) ∧
        b' = { named with nodes := named.nodes ++ [⟨inputs, filters, outputs⟩] } := by
  unfold chain addChain
  cases filters with
  | nil => simp
  | cons filter others =>
      rcases hread : note consume b inputs with ⟨read, cause | ⟨⟩⟩
      · simp
      · rcases hname : note produce read outputs with ⟨named, cause | ⟨⟩⟩
        · simp [hname]
        · simp [hname, @eq_comm _ b']

/-- A builder takes a chain if the chain has a filter, its links are produced and
unread, and its outputs are new names. -/
theorem chain_eq_ok_iff (b b' : Builder α) (inputs : List String) (filters : List (Filter α))
    (outputs : List String) :
    b.chain inputs filters outputs = .ok b' ↔
      filters ≠ [] ∧
        (∀ label ∈ Label.links inputs, label ∈ b.produced ∧ label ∉ b.consumed) ∧
        (Label.links inputs).Nodup ∧
        (∀ label ∈ outputs, label ∉ b.produced ∧ Label.isRaw label = false) ∧
        outputs.Nodup ∧
        b' = ⟨b.nodes ++ [⟨inputs, filters, outputs⟩], b.produced ++ outputs,
          b.consumed ++ Label.links inputs⟩ := by
  rw [chain_eq_ok_iff_note]
  constructor
  · rintro ⟨hfilters, read, named, hread, hname, rfl⟩
    obtain ⟨hlinks, hdistinct, rfl⟩ := (note_consume_eq_ok_iff _ _ _).1 hread
    obtain ⟨hnew, hnodup, rfl⟩ := (note_produce_eq_ok_iff _ _ _).1 hname
    exact ⟨hfilters, hlinks, hdistinct, hnew, hnodup, rfl⟩
  · rintro ⟨hfilters, hlinks, hdistinct, hnew, hnodup, rfl⟩
    exact ⟨hfilters, _, _, (note_consume_eq_ok_iff _ _ _).2 ⟨hlinks, hdistinct, rfl⟩,
      (note_produce_eq_ok_iff _ _ _).2 ⟨hnew, hnodup, rfl⟩, rfl⟩

/-- A chain that is taken is also what `addChain` returns. -/
theorem addChain_of_chain {b b' : Builder α} {inputs : List String} {filters : List (Filter α)}
    {outputs : List String} (h : b.chain inputs filters outputs = .ok b') :
    ∃ node, b.addChain inputs filters outputs = (b', .ok node) := by
  unfold chain at h
  split at h
  · next next node hadd =>
      cases h
      exact ⟨node, hadd⟩
  · cases h

/-- A label is terminal if it is produced and not read. -/
theorem mem_terminals {b : Builder α} {label : String} :
    label ∈ b.terminals ↔ label ∈ b.produced ∧ label ∉ b.consumed := by
  simp [terminals]

/-- The labels that are chosen as results. -/
theorem mem_named {video audio : Option String} {label : String} :
    label ∈ [video, audio].filterMap id ↔ video = some label ∨ audio = some label := by
  simp [eq_comm]

/-- The results are accepted if there is a chain and the results are exactly the
labels that nobody reads. -/
theorem build_eq_ok_iff (b : Builder α) (video audio : Option String) (graph : Graph α) :
    b.build video audio = .ok graph ↔
      b.nodes ≠ [] ∧
        (∀ label, label ∈ b.terminals ↔ video = some label ∨ audio = some label) ∧
        graph = ⟨b.nodes, video, audio⟩ := by
  simp only [build, isEmpty, List.isEmpty_iff, @eq_comm _ graph, ← mem_named]
  generalize [video, audio].filterMap id = named
  by_cases hempty : b.nodes = []
  · simp [hempty]
  · rw [if_neg hempty]
    cases hfind : named.find? fun label => !b.terminals.contains label with
    | some label =>
        -- A chosen label that is no terminal.
        have hnot : label ∉ b.terminals := by simpa using List.find?_some hfind
        have hmem : label ∈ named := List.mem_of_find?_eq_some hfind
        simp only [reduceCtorEq, false_iff, not_and]
        intro _ hall
        exact absurd ((hall label).2 hmem) hnot
    | none =>
        -- Every chosen label is a terminal, so only terminals that are not chosen are left.
        have hsub : ∀ label ∈ named, label ∈ b.terminals := by
          simpa using List.find?_eq_none.1 hfind
        by_cases hdangling : ∀ label ∈ b.terminals, label ∈ named
        · have hall : ∀ label, label ∈ b.terminals ↔ label ∈ named :=
            fun label => ⟨hdangling label, hsub label⟩
          simp [hempty, hall]
        · have hsome : (b.terminals.filter fun label => !named.contains label) ≠ [] := by
            simpa using hdangling
          simp only [hsome, if_false, reduceCtorEq, false_iff, not_and]
          intro _ hall
          exact absurd (fun label => (hall label).1) hdangling

end Builder

end Montage
