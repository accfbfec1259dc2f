import Montage.Proofs.Plan.Join

/-!
# The labels of any number of clips

There are three kinds of labels: raw labels for the streams of the inputs, labels for the
filtered videos of clips, and the labels of the results.  The first two carry a decimal number
of any length, which is read again where labels are checked.  They are read back as what they
were written for and are never taken for one another (`labels_agree_and_differ`).

So the clips of a join, however many they are, get labels of their own.  The walk over the clips
keeps the invariant that what the builder holds was produced for the clips seen so far and that
nothing of it was read (`addClips_noted`).
-/

namespace Montage

variable {α : Type}

/-- The labels of the filtered videos of `count` clips, from number `index` on. -/
def Label.clipVideos (index count : Nat) : List String :=
  (List.range' index count).map fun n : Nat => clipVideo n

namespace Label

theorem clipVideos_succ (index count : Nat) :
    clipVideos index (count + 1) = clipVideo index :: clipVideos (index + 1) count := by
  rw [clipVideos, List.range'_succ, List.map_cons]
  rfl

theorem length_clipVideos (index count : Nat) : (clipVideos index count).length = count := by
  rw [clipVideos, List.length_map, List.length_range']

theorem nodup_clipVideos (index count : Nat) : (clipVideos index count).Nodup :=
  (List.nodup_map_iff fun _ _ => clipVideo_injective).2 List.nodup_range'

end Label

namespace Builder

/-- Pass the videos of clips, from number `index` on, one after another through filters of their
own; the labels of the results in order. -/
def addClips (b : Builder α) (index : Nat) :
    List (List (Filter α)) → Except PlanCause (Builder α × List String)
  | [] => .ok (b, [])
  | filters :: rest =>
    match b.addClipVideo index filters with
    | (_, .error cause) => .error cause
    | (b, .ok label) => (b.addClips (index + 1) rest).map fun (b, labels) => (b, label :: labels)

/-- The walk over clips with filters.  Behind chains that fit together and have none of their
labels it goes through, adds chains that read raw streams only, and returns their labels. -/
theorem addClips_noted {clips : List (List (Filter α))} (hclips : ∀ filters ∈ clips, filters ≠ [])
    (index : Nat) (chains : List (Node α)) (h : Graph.Linked chains)
    (hnew : ∀ n, index ≤ n → Label.clipVideo n ∉ Graph.produced chains) :
    ∃ added, Graph.Linked (chains ++ added) ∧
      Graph.produced added = Label.clipVideos index clips.length ∧ Graph.consumed added = [] ∧
      (noted chains).addClips index clips =
        .ok (noted (chains ++ added), Label.clipVideos index clips.length) := by
  induction clips generalizing index chains with
  | nil => exact ⟨[], by rwa [List.append_nil], rfl, rfl, by rw [List.append_nil]; rfl⟩
  | cons filters rest ih =>
      obtain ⟨hfilters, hrest⟩ := List.forall_mem_cons.1 hclips
      obtain ⟨hlinked, hadd⟩ := Plan.addClipVideo_noted filters h (hnew index (Nat.le_refl index))
      have hchain : Plan.clipChain filters index =
          [⟨[Label.raw index .video], filters, [Label.clipVideo index]⟩] := by
        simp [Plan.clipChain, hfilters]
      have hproduced : Graph.produced (Plan.clipChain filters index) = [Label.clipVideo index] := by
        rw [hchain, Graph.produced_singleton]
      rw [if_neg (by simpa using hfilters)] at hadd
      -- The label of this clip is none of those that are to come.
      have hlater : ∀ n, index + 1 ≤ n →
          Label.clipVideo n ∉ Graph.produced (chains ++ Plan.clipChain filters index) := by
        intro n hn hmem
        rw [Graph.produced_append, hproduced, List.mem_append, List.mem_singleton] at hmem
        rcases hmem with hmem | hmem
        · exact hnew n (Nat.le_of_succ_le hn) hmem
        · have hsame := Label.clipVideo_injective hmem
          omega
      obtain ⟨added, hall, hmade, hread, hwalk⟩ := ih hrest (index + 1) _ hlinked hlater
      rw [List.append_assoc] at hall hwalk
      refine ⟨Plan.clipChain filters index ++ added, hall, ?_, ?_, ?_⟩
      · rw [Graph.produced_append, hproduced, hmade, List.length_cons, Label.clipVideos_succ,
          List.singleton_append]
      · rw [Graph.consumed_append, Plan.consumed_clipChain, hread, List.append_nil]
      · rw [addClips, hadd, List.length_cons, Label.clipVideos_succ]
        simp only [hwalk]
        rfl

/-- A new builder takes clips with filters, and their labels are all that nobody reads. -/
theorem addClips_empty {clips : List (List (Filter α))} (hclips : ∀ filters ∈ clips, filters ≠ []) :
    ∃ b, (empty : Builder α).addClips 0 clips = .ok (b, Label.clipVideos 0 clips.length) ∧
      b.terminals = Label.clipVideos 0 clips.length := by
  obtain ⟨added, -, hmade, hread, hwalk⟩ :=
    addClips_noted hclips 0 [] Graph.linked_nil (by simp [Graph.produced])
  refine ⟨noted added, hwalk, ?_⟩
  simp [terminals, noted, hmade, hread]

end Builder

namespace Label

/-- **Labels agree and never clash.**  A raw label is recognised and its number is read back, as
far as numbers can be read.  The label of a clip is not taken for a raw one or for that of a
result.  Labels of both kinds say for what they were written, also if the stream is any text.  So
clips with filters, however many, are taken by a new builder and have labels that are all
different and that nobody reads. -/
theorem labels_agree_and_differ :
    (∀ (n : Nat) (stream : Stream), isRaw (raw n stream) = true ∧
      (n < Decimal.unreadable → rawInput? (raw n stream) = .ok (some (n : Int)))) ∧
    (∀ n : Nat, isRaw (clipVideo n) = false ∧
      clipVideo n ≠ Plan.videoLabel ∧ clipVideo n ≠ Plan.audioLabel) ∧
    (∀ m n : Nat, clipVideo m = clipVideo n ↔ m = n) ∧
    (∀ (m n : Nat) (kind other : String),
      ofStream m kind = ofStream n other ↔ m = n ∧ kind = other) ∧
    (∀ (m n : Nat) (stream other : Stream),
      raw m stream = raw n other ↔ m = n ∧ stream = other) ∧
    ∀ clips : List (List (Filter α)), (∀ filters ∈ clips, filters ≠ []) →
      ∃ b labels, (Builder.empty : Builder α).addClips 0 clips = .ok (b, labels) ∧
        labels.length = clips.length ∧ labels.Nodup ∧ b.terminals = labels := by
  refine ⟨fun n stream => ⟨isRaw_raw n stream, fun hn => ?_⟩, fun n => ?_, fun m n => ?_,
    fun m n kind other => ofStream_inj, fun m n stream other => raw_inj, fun clips hclips => ?_⟩
  · rw [rawInput?_raw, if_pos hn]
  · exact ⟨isRaw_clipVideo n, clipVideo_ne n (by decide), clipVideo_ne n (by decide)⟩
  · exact ⟨clipVideo_injective, fun h => by rw [h]⟩
  · obtain ⟨b, hadd, hterminals⟩ := Builder.addClips_empty hclips
    exact ⟨b, _, hadd, length_clipVideos 0 clips.length, nodup_clipVideos 0 clips.length,
      hterminals⟩

/-- The clip with the number ten is read from its raw label, and is one of eleven that are taken,
each flipped. -/
theorem labels_agree_and_differ_eleven :
    rawInput? "10:a" = .ok (some 10) ∧
      ∃ b labels, (Builder.empty : Builder Number).addClips 0
          (List.replicate 11 [Filter.ofExpression "hflip"]) = .ok (b, labels) ∧
        labels.length = 11 ∧ labels.Nodup ∧ b.terminals = labels := by
  obtain ⟨hraw, -, -, -, -, hclips⟩ := labels_agree_and_differ (α := Number)
  have hten : 10 < Decimal.unreadable := Decimal.length_toDigits_le_iff.1 (by decide)
  refine ⟨(hraw 10 .audio).2 hten, hclips _ fun filters hfilters => ?_⟩
  rw [List.eq_of_mem_replicate hfilters]
  exact List.cons_ne_nil _ _

end Label

end Montage
