import Montage.Number
import Montage.Proofs.Graph.Builder
import Montage.Proofs.Graph.Label

/-!
# What a refused chain leaves behind

A builder notes the labels of a chain one at a time, and a refusal does not take back the notes
made before it.  The refused chain is not taken, but the links it got to read stay read and the
names it got to give stay given (`addChain_stops`).  A name that stays given without a chain that
makes it is a stray (`strays`), and a later chain may read it.

The invariant of all builders that calls can reach, refused calls among them, is `Kept`: what a
chain reads was noted before the chain was taken, and neither it nor a later one makes it.  So a
graph that is built reads each link from an earlier chain, or it reads a stray
(`refused_chain_leaves`).
-/

namespace Montage.Builder

variable {α : Type}

section Notes

variable {b b' : Builder α} {label : String} {cause : PlanCause}

/-- A label cannot be read if it is no raw stream and is not produced or is read already. -/
theorem of_consume_eq_error (h : b.consume label = .error cause) :
    Label.isRaw label = false ∧ (label ∉ b.produced ∨ label ∈ b.consumed) := by
  unfold consume at h
  split_ifs at h with hraw hproduced hconsumed
  · exact ⟨by simpa using hraw, .inl (by simpa using hproduced)⟩
  · exact ⟨by simpa using hraw, .inr (by simpa using hconsumed)⟩

/-- A name cannot be given if it is given already or is that of a raw stream. -/
theorem of_produce_eq_error (h : b.produce label = .error cause) :
    label ∈ b.produced ∨ Label.isRaw label = true := by
  unfold produce at h
  split_ifs at h with htaken
  simpa using htaken

/-- Noting labels stops at the first that is refused, with the labels before it noted. -/
theorem note_stops {step : Builder α → String → Except PlanCause (Builder α)}
    {labels : List String} (h : note step b labels = (b', .error cause)) :
    ∃ before label after, labels = before ++ label :: after ∧
      note step b before = (b', .ok ()) ∧ step b' label = .error cause := by
  induction labels generalizing b with
  | nil => cases h
  | cons label rest ih =>
      cases hstep : step b label with
      | error other =>
          simp only [note, hstep] at h
          cases h
          exact ⟨[], label, rest, rfl, rfl, hstep⟩
      | ok next =>
          simp only [note, hstep] at h
          obtain ⟨before, refused, after, rfl, hnoted, hrefused⟩ := ih h
          exact ⟨label :: before, refused, after, rfl,
            (note_cons_eq_ok_iff step b b' label before).2 ⟨next, hstep, hnoted⟩, hrefused⟩

end Notes

/-- Each link among the labels is produced and not yet read. -/
def CanRead (b : Builder α) (labels : List String) : Prop :=
  ∀ label ∈ Label.links labels, label ∈ b.produced ∧ label ∉ b.consumed

/-- Each of the labels is a new name and no raw stream. -/
def CanName (b : Builder α) (labels : List String) : Prop :=
  ∀ label ∈ labels, label ∉ b.produced ∧ Label.isRaw label = false

section Refusal

variable {b b' : Builder α} {inputs outputs : List String} {filters : List (Filter α)}
  {cause : PlanCause}

/-- Where a chain can be refused, and the builder it leaves: at once without a filter, at one of
its inputs, or at one of its outputs when all inputs are read. -/
theorem addChain_stops (h : b.addChain inputs filters outputs = (b', .error cause)) :
    (filters = [] ∧ b' = b) ∨
      filters ≠ [] ∧
        ((∃ read label after, inputs = read ++ label :: after ∧ b.CanRead read ∧
            Label.isRaw label = false ∧
            (label ∉ b.produced ∨ label ∈ b.consumed ++ Label.links read) ∧
            b' = { b with consumed := b.consumed ++ Label.links read }) ∨
          ∃ named label after, outputs = named ++ label :: after ∧ b.CanRead inputs ∧
            b.CanName named ∧ (label ∈ b.produced ++ named ∨ Label.isRaw label = true) ∧
            b' = ⟨b.nodes, b.produced ++ named, b.consumed ++ Label.links inputs⟩) := by
  unfold addChain at h
  by_cases hnone : filters = []
  · rw [if_pos (by simpa using hnone)] at h
    cases h
    exact .inl ⟨hnone, rfl⟩
  · rw [if_neg (by simpa using hnone)] at h
    refine .inr ⟨hnone, ?_⟩
    rcases hread : note consume b inputs with ⟨read, refusal | ⟨⟩⟩
    · -- The labels before the refused one went through, and their notes are what is returned.
      rw [hread] at h
      cases h
      obtain ⟨before, label, after, hsplit, hnoted, hrefused⟩ := note_stops hread
      obtain ⟨hall, -, rfl⟩ := (note_consume_eq_ok_iff before b _).1 hnoted
      obtain ⟨hraw, hbad⟩ := of_consume_eq_error hrefused
      exact .inl ⟨before, label, after, hsplit, hall, hraw, hbad, rfl⟩
    · rw [hread] at h
      obtain ⟨hall, -, rfl⟩ := (note_consume_eq_ok_iff inputs b read).1 hread
      rcases hname : note produce { b with consumed := b.consumed ++ Label.links inputs } outputs
        with ⟨named, refusal | ⟨⟩⟩
      · simp only [hname] at h
        cases h
        obtain ⟨before, label, after, hsplit, hnoted, hrefused⟩ := note_stops hname
        obtain ⟨hnew, -, rfl⟩ := (note_produce_eq_ok_iff before _ _).1 hnoted
        exact .inr ⟨before, label, after, hsplit, hall, hnew, of_produce_eq_error hrefused, rfl⟩
      · simp only [hname] at h
        cases h

/-- The first label that a chain would note is refused. -/
def RefusedFirst (b : Builder α) (inputs outputs : List String) : Prop :=
  (∃ label rest, Label.links inputs = label :: rest ∧
      (label ∉ b.produced ∨ label ∈ b.consumed)) ∨
    Label.links inputs = [] ∧ ∃ label rest, outputs = label :: rest ∧
      (label ∈ b.produced ∨ Label.isRaw label = true)

/-- A chain whose inputs can be read is not refused at its first link. -/
theorem CanRead.refusedFirst_iff (h : b.CanRead inputs) :
    b.RefusedFirst inputs outputs ↔ Label.links inputs = [] ∧ ∃ label rest,
      outputs = label :: rest ∧ (label ∈ b.produced ∨ Label.isRaw label = true) := by
  refine or_iff_right ?_
  rintro ⟨label, rest, hlinks, hbad⟩
  obtain ⟨hmade, hunread⟩ := h label (by simp [hlinks])
  exact hbad.elim (· hmade) hunread

end Refusal

/-- The names that were given and that no chain makes. -/
def strays (b : Builder α) : List String :=
  b.produced.filter fun label => !(Graph.produced b.nodes).contains label

theorem mem_strays {b : Builder α} {label : String} :
    label ∈ b.strays ↔ label ∈ b.produced ∧ label ∉ Graph.produced b.nodes := by
  simp [strays]

/-- What the notes of a builder keep of the chains it took, whatever was refused between them. -/
structure Kept (b : Builder α) : Prop where
  made : ∀ label ∈ Graph.produced b.nodes, label ∈ b.produced
  read : ∀ before node after, b.nodes = before ++ node :: after →
    ∀ label ∈ Label.links node.inputs,
      label ∈ b.produced ∧ label ∉ Graph.produced (node :: after)

theorem kept_empty : (empty : Builder α).Kept where
  made := by simp [empty, Graph.produced]
  read := by simp [empty]

section Steps

variable {b b' : Builder α} {inputs outputs : List String} {filters : List (Filter α)}

/-- More notes do not harm. -/
theorem Kept.of_notes (h : b.Kept) (hnodes : b'.nodes = b.nodes)
    (hproduced : ∀ label ∈ b.produced, label ∈ b'.produced) : b'.Kept where
  made label hlabel := hproduced label (h.made label (hnodes ▸ hlabel))
  read before node after hsplit label hlabel := by
    obtain ⟨hmade, hlater⟩ := h.read before node after (hnodes ▸ hsplit) label hlabel
    exact ⟨hproduced label hmade, hlater⟩

/-- A chain that is taken reads what was noted before it, and makes what was not. -/
theorem Kept.chain (h : b.Kept) (hchain : b.chain inputs filters outputs = .ok b') :
    b'.Kept := by
  obtain ⟨-, hlinks, -, hnew, -, rfl⟩ := (chain_eq_ok_iff _ _ _ _ _).1 hchain
  refine ⟨fun label hlabel => ?_, fun before node after hsplit label hlabel => ?_⟩
  · rw [Graph.produced_append, Graph.produced_singleton] at hlabel
    rcases List.mem_append.1 hlabel with hlabel | hlabel
    · exact List.mem_append_left _ (h.made label hlabel)
    · exact List.mem_append_right _ hlabel
  · have hunmade {other : String} (hother : other ∈ b.produced) : other ∉ outputs :=
      fun hmem => (hnew other hmem).1 hother
    rcases Graph.split_concat hsplit with ⟨rfl, rfl, rfl⟩ | ⟨front, rfl, hold⟩
    · -- The chain in question is the new one.
      have hmade := (hlinks label hlabel).1
      rw [Graph.produced_singleton]
      exact ⟨List.mem_append_left _ hmade, hunmade hmade⟩
    · obtain ⟨hmade, hlater⟩ := h.read before node front hold label hlabel
      refine ⟨List.mem_append_left _ hmade, ?_⟩
      rw [← List.cons_append, Graph.produced_append, Graph.produced_singleton, List.mem_append,
        not_or]
      exact ⟨hlater, hunmade hmade⟩

/-- A chain that is taken leaves no stray. -/
theorem strays_chain (hchain : b.chain inputs filters outputs = .ok b') :
    b'.strays = b.strays := by
  obtain ⟨-, -, -, hnew, -, rfl⟩ := (chain_eq_ok_iff _ _ _ _ _).1 hchain
  -- The new chain makes its own names, and none of those given before.
  have hold : ∀ label ∈ b.produced,
      (!(Graph.produced b.nodes ++ outputs).contains label) =
        !(Graph.produced b.nodes).contains label := by
    intro label hlabel
    have hunmade : label ∉ outputs := fun hmem => (hnew label hmem).1 hlabel
    simp [hunmade]
  have hown : outputs.filter
      (fun label => !(Graph.produced b.nodes ++ outputs).contains label) = [] := by
    rw [List.filter_eq_nil_iff]
    intro label hlabel
    simp [hlabel]
  simp only [strays, Graph.produced_append, Graph.produced_singleton]
  rw [List.filter_append, hown, List.append_nil]
  exact List.filter_congr hold

/-- Names that were given and not made are strays. -/
theorem Kept.strays_of_notes (h : b.Kept) {named consumed : List String}
    (hnew : b.CanName named) :
    (⟨b.nodes, b.produced ++ named, consumed⟩ : Builder α).strays = b.strays ++ named := by
  have hunmade : ∀ label ∈ named, (!(Graph.produced b.nodes).contains label) = true := by
    intro label hlabel
    have hnot : label ∉ Graph.produced b.nodes :=
      fun hmade => (hnew label hlabel).1 (h.made label hmade)
    simpa using hnot
  simp only [strays]
  rw [List.filter_append, List.filter_eq_self.2 hunmade]

end Steps

/-- The builders that calls reach from a new one, whether the calls are refused or not. -/
inductive Reachable : Builder α → Prop
  | empty : Reachable empty
  | addChain {b : Builder α} (h : Reachable b) (inputs : List String)
      (filters : List (Filter α)) (outputs : List String) :
      Reachable (b.addChain inputs filters outputs).1
  | addClipVideo {b : Builder α} (h : Reachable b) (index : Int) (filters : List (Filter α)) :
      Reachable (b.addClipVideo index filters).1

/-- What a refused chain leaves of a builder. -/
structure Leaves (b b' : Builder α) (inputs : List String) (filters : List (Filter α))
    (outputs : List String) : Prop where
  nodes : b'.nodes = b.nodes
  notes : ∃ read named, read <+: inputs ∧ named <+: outputs ∧
    b'.consumed = b.consumed ++ Label.links read ∧ b'.produced = b.produced ++ named ∧
    b'.strays = b.strays ++ named
  unchanged : b' = b ↔ filters = [] ∨ b.RefusedFirst inputs outputs

section Runs

variable {b b' : Builder α} {inputs outputs : List String} {filters : List (Filter α)}
  {cause : PlanCause}

/-- A refusal at an input takes back nothing that was read before it. -/
theorem CanRead.unchanged_iff {read after : List String} {label : String} (h : b.CanRead read)
    (hraw : Label.isRaw label = false)
    (hbad : label ∉ b.produced ∨ label ∈ b.consumed ++ Label.links read) :
    ({ b with consumed := b.consumed ++ Label.links read } : Builder α) = b ↔
      b.RefusedFirst (read ++ label :: after) outputs := by
  have hlinks : Label.links (read ++ label :: after) =
      Label.links read ++ label :: Label.links after := by
    rw [Label.links_append, Label.links_cons_of_not_raw hraw]
  constructor
  · intro hsame
    have hnone : Label.links read = [] := by simpa using congrArg consumed hsame
    rw [hnone, List.append_nil] at hbad
    exact .inl ⟨label, Label.links after, by rw [hlinks, hnone, List.nil_append], hbad⟩
  · rintro (⟨first, rest, hfirst, hrefused⟩ | ⟨hnone, -⟩)
    · -- If a link was read before, then it was the first, and not refused.
      cases hread : Label.links read with
      | nil => simp
      | cons other others =>
          rw [hlinks, hread, List.cons_append] at hfirst
          obtain rfl := (List.cons.inj hfirst).1
          obtain ⟨hmade, hunread⟩ := h other (by simp [hread])
          exact absurd hrefused (not_or.2 ⟨not_not.2 hmade, hunread⟩)
    · simp [hlinks] at hnone

/-- A refusal at an output takes back nothing that was read, and no name given before it. -/
theorem CanName.unchanged_iff {named after : List String} {label : String} (h : b.CanName named)
    (hread : b.CanRead inputs)
    (hbad : label ∈ b.produced ++ named ∨ Label.isRaw label = true) :
    (⟨b.nodes, b.produced ++ named, b.consumed ++ Label.links inputs⟩ : Builder α) = b ↔
      b.RefusedFirst inputs (named ++ label :: after) := by
  rw [hread.refusedFirst_iff]
  constructor
  · intro hsame
    have hnone : named = [] := by simpa using congrArg produced hsame
    have hraw : Label.links inputs = [] := by simpa using congrArg consumed hsame
    subst hnone
    rw [List.append_nil] at hbad
    exact ⟨hraw, label, after, rfl, hbad⟩
  · rintro ⟨hraw, first, rest, hfirst, hrefused⟩
    cases named with
    | nil => simp [hraw]
    | cons other others =>
        obtain rfl := (List.cons.inj hfirst).1
        obtain ⟨hnew, hlink⟩ := h other List.mem_cons_self
        rw [hlink] at hrefused
        exact absurd hrefused (by simp [hnew])

/-- What a refused chain leaves of a builder that keeps its notes. -/
theorem Kept.leaves (h : b.Kept)
    (hrefused : b.addChain inputs filters outputs = (b', .error cause)) :
    Leaves b b' inputs filters outputs := by
  rcases addChain_stops hrefused with ⟨rfl, rfl⟩ | ⟨hsome, hstop⟩
  · exact ⟨rfl, ⟨[], [], List.nil_prefix, List.nil_prefix, (List.append_nil _).symm,
      (List.append_nil _).symm, (List.append_nil _).symm⟩, by simp⟩
  rcases hstop with ⟨read, label, after, rfl, hall, hraw, hbad, rfl⟩ |
    ⟨named, label, after, rfl, hall, hnew, hbad, rfl⟩
  · refine ⟨rfl, ⟨read, [], List.prefix_append _ _, List.nil_prefix, rfl,
      (List.append_nil _).symm, (List.append_nil _).symm⟩, ?_⟩
    rw [or_iff_right hsome]
    exact hall.unchanged_iff hraw hbad
  · refine ⟨rfl, ⟨inputs, named, List.prefix_rfl, List.prefix_append _ _, rfl, rfl,
      h.strays_of_notes hnew⟩, ?_⟩
    rw [or_iff_right hsome]
    exact hnew.unchanged_iff hall hbad

/-- A call keeps what the notes say, refused or not. -/
theorem Kept.addChain (h : b.Kept) (inputs : List String) (filters : List (Filter α))
    (outputs : List String) : (b.addChain inputs filters outputs).1.Kept := by
  rcases hcall : b.addChain inputs filters outputs with ⟨b', cause | node⟩
  · obtain ⟨hnodes, ⟨_, named, -, -, -, hproduced, -⟩, -⟩ := h.leaves hcall
    refine h.of_notes hnodes fun label hlabel => ?_
    rw [hproduced]
    exact List.mem_append_left _ hlabel
  · have hchain : b.chain inputs filters outputs = .ok b' := by rw [Builder.chain, hcall]
    exact h.chain hchain

/-- The video of a clip is passed on by a chain, which is not even tried without a filter. -/
theorem addClipVideo_fst (b : Builder α) (index : Int) (filters : List (Filter α)) :
    (b.addClipVideo index filters).1 =
      (b.addChain [Label.raw index .video] filters [Label.clipVideo index]).1 := by
  unfold addClipVideo
  by_cases hnone : filters.isEmpty = true
  · simp [hnone, Builder.addChain]
  · rw [if_neg hnone]
    rcases hcall : b.addChain [Label.raw index .video] filters [Label.clipVideo index] with
      ⟨b', cause | node⟩ <;> simp only [hcall]

theorem addChain_of_addClipVideo {index : Int}
    (h : b.addClipVideo index filters = (b', .error cause)) :
    b.addChain [Label.raw index .video] filters [Label.clipVideo index] = (b', .error cause) := by
  unfold addClipVideo at h
  by_cases hnone : filters.isEmpty = true
  · rw [if_pos hnone] at h
    cases h
  · rw [if_neg hnone] at h
    rcases hcall : b.addChain [Label.raw index .video] filters [Label.clipVideo index] with
      ⟨b', cause | node⟩
    · simp only [hcall] at h
      cases h
      rfl
    · simp only [hcall] at h
      cases h

/-- **Every builder that is reached keeps its notes.** -/
theorem Reachable.kept (h : b.Reachable) : b.Kept := by
  induction h with
  | empty => exact kept_empty
  | addChain _ inputs filters outputs ih => exact ih.addChain inputs filters outputs
  | addClipVideo _ index filters ih =>
      rw [addClipVideo_fst]
      exact ih.addChain _ filters _

/-- The video of an input is a raw stream and needs a single name, so its chain is refused before
anything is noted. -/
theorem unchanged_of_addClipVideo {index : Int} (hindex : 0 ≤ index)
    (h : b.addClipVideo index filters = (b', .error cause)) : b' = b := by
  obtain ⟨n, rfl⟩ := Int.eq_ofNat_of_zero_le hindex
  have hraw := Label.isRaw_raw n .video
  have hnone : Label.links [Label.raw n .video] = [] := Label.links_cons_of_raw hraw []
  rcases addChain_stops (addChain_of_addClipVideo h) with ⟨-, rfl⟩ | ⟨-, hstop⟩
  · rfl
  rcases hstop with ⟨read, label, after, hsplit, -, hlink, -⟩ |
    ⟨named, label, after, hsplit, -, -, -, rfl⟩
  · have hmem : label ∈ [Label.raw n .video] := hsplit ▸ by simp
    rw [List.mem_singleton.1 hmem, hraw] at hlink
    cases hlink
  · obtain ⟨rfl, -⟩ : named = [] ∧ label :: after = [Label.clipVideo n] := by
      simpa [List.singleton_eq_append_iff] using hsplit
    simp [hnone]

/-- In a graph that is built, a link is read from an earlier chain unless it is a stray. -/
theorem Kept.madeEarlier_iff (h : b.Kept) {before after : List (Node α)} {node : Node α}
    (hsplit : b.nodes = before ++ node :: after) {label : String}
    (hlabel : label ∈ Label.links node.inputs) :
    (∃ earlier ∈ before, label ∈ earlier.outputs) ↔ label ∉ b.strays := by
  obtain ⟨hnoted, hlater⟩ := h.read before node after hsplit label hlabel
  have hmade : label ∈ Graph.produced b.nodes ↔ ∃ earlier ∈ before, label ∈ earlier.outputs := by
    rw [hsplit, Graph.produced_append, List.mem_append, or_iff_left hlater]
    simp [Graph.produced]
  rw [mem_strays, not_and, not_not, ← hmade]
  exact ⟨fun hmem _ => hmem, fun hall => hall hnoted⟩

end Runs

/-- **What a refused chain leaves, and what is built behind it.**  From every builder that calls
can reach, a refused chain leaves the chains and notes a first part of its inputs and of its
outputs, and that is nothing exactly if it has no filter or the first label it notes is refused.
The names noted so become strays, of which a chain that is taken leaves none; and a graph that is
built reads a link from an earlier chain exactly if the link is no stray. -/
theorem refused_chain_leaves {b : Builder α} (hb : b.Reachable) :
    (∀ inputs filters outputs b' cause,
      b.addChain inputs filters outputs = (b', .error cause) →
        Leaves b b' inputs filters outputs) ∧
    (∀ index filters b' cause, b.addClipVideo index filters = (b', .error cause) →
      Leaves b b' [Label.raw index .video] filters [Label.clipVideo index] ∧
        (0 ≤ index → b' = b)) ∧
    (∀ inputs filters outputs b' node,
      b.addChain inputs filters outputs = (b', .ok node) → b'.strays = b.strays) ∧
    (∀ video audio graph, b.build video audio = .ok graph →
      ∀ before node after, graph.nodes = before ++ node :: after →
        ∀ label ∈ node.inputs, Label.isRaw label = false →
          ((∃ earlier ∈ before, label ∈ earlier.outputs) ↔ label ∉ b.strays)) := by
  refine ⟨fun inputs filters outputs b' cause hcall => hb.kept.leaves hcall,
    fun index filters b' cause hcall => ⟨hb.kept.leaves (addChain_of_addClipVideo hcall),
      fun hindex => unchanged_of_addClipVideo hindex hcall⟩,
    fun inputs filters outputs b' node hcall => ?_,
    fun video audio graph hbuild before node after hsplit label hlabel hlink => ?_⟩
  · have hchain : b.chain inputs filters outputs = .ok b' := by rw [Builder.chain, hcall]
    exact strays_chain hchain
  · obtain ⟨-, -, rfl⟩ := (build_eq_ok_iff b video audio graph).1 hbuild
    exact hb.kept.madeEarlier_iff hsplit (Label.mem_links.2 ⟨hlabel, hlink⟩)

/-- A builder that has refused a chain with the same name twice. -/
def halfNamed : Builder Number := (empty.addChain ["0:v"] [⟨"null", []⟩] ["x", "x"]).1

/-- The same builder, which has then taken a chain that reads this name. -/
def misled : Builder Number := (halfNamed.addChain ["x"] [⟨"null", []⟩] ["v"]).1

/-- The refused chain is not without effect: its name is a stray, and a graph of the chain that
reads it is built. -/
theorem refused_name_is_read :
    empty.addChain ["0:v"] [⟨"null", []⟩] ["x", "x"] = (halfNamed, .error (.duplicate "x")) ∧
      halfNamed ≠ empty ∧ "x" ∈ misled.strays ∧
      misled.build (some "v") none = .ok ⟨[⟨["x"], [⟨"null", []⟩], ["v"]⟩], some "v", none⟩ := by
  have hreached : misled.Reachable := .addChain (.addChain .empty _ _ _) _ _ _
  have hbuild : misled.build (some "v") none =
      .ok ⟨[⟨["x"], [⟨"null", []⟩], ["v"]⟩], some "v", none⟩ := rfl
  have hlink : Label.isRaw "x" = false := by decide +kernel
  have hearlier := (refused_chain_leaves hreached).2.2.2 _ _ _ hbuild [] _ [] rfl "x"
    List.mem_cons_self hlink
  refine ⟨rfl, fun hsame => ?_, ?_, hbuild⟩
  · have hproduced : ["x"] = [] := congrArg produced hsame
    cases hproduced
  · -- Nothing comes before the first chain.
    by_contra hmade
    obtain ⟨_, hbefore, -⟩ := hearlier.2 hmade
    cases hbefore

end Montage.Builder
