import Montage.Graph.Basic
import Montage.Proofs.Graph.Label
import Montage.Proofs.Text

/-!
# The text of a graph

The engine knows a graph by its text alone.  It takes the text apart at the semicolons and finds
the links between brackets (`linksIn`).  What it finds are the chains and the labels of the graph
exactly if no filter of the graph is written with a semicolon or an opening bracket
(`shows_iff`): with one of them in a filter there are too many parts, or other
links.
-/

namespace Montage

namespace Text

/-- The texts between brackets, in order.  What has been read since an opening bracket is kept
last first. -/
def linksFrom : Option (List Char) → List Char → List String
  | _, [] => []
  | none, c :: rest => if c == '[' then linksFrom (some []) rest else linksFrom none rest
  | some read, c :: rest =>
    if c == ']' then String.ofList read.reverse :: linksFrom none rest
    else linksFrom (some (c :: read)) rest

/-- The links that stand in a text. -/
def linksIn (text : String) : List String := linksFrom none text.toList

/-- How many opening brackets belong to a link that is being read. -/
def opened : Option (List Char) → Nat
  | none => 0
  | some read => read.countP (· == '[') + 1

/-- Every opening bracket of a text that ends with a closing one begins a link or stands in
one. -/
theorem countP_bracket (state : Option (List Char)) (cs : List Char) :
    (cs ++ [']']).countP (· == '[') + opened state =
      (linksFrom state (cs ++ [']'])).length +
        weight (· == '[') (linksFrom state (cs ++ [']'])) := by
  induction cs generalizing state with
  | nil =>
      cases state with
      | none => rfl
      | some read =>
          have hlinks : linksFrom (some read) ([] ++ [']']) = [String.ofList read.reverse] := rfl
          have hread : (String.ofList read.reverse).toList.countP (· == '[') =
              read.countP (· == '[') := by rw [String.toList_ofList, List.countP_reverse]
          have hclosing : ([] ++ [']']).countP (· == '[') = 0 := rfl
          rw [hlinks, weight_cons, hread, weight_nil, hclosing, opened, List.length_singleton]
          omega
  | cons c rest ih =>
      rw [List.cons_append, List.countP_cons]
      cases state with
      | none =>
          by_cases hc : (c == '[') = true
          · have hopen := ih (some [])
            have hlinks : linksFrom none (c :: (rest ++ [']'])) =
                linksFrom (some []) (rest ++ [']']) := if_pos hc
            rw [hlinks, ← hopen, if_pos hc]
            rfl
          · have hlinks : linksFrom none (c :: (rest ++ [']'])) =
                linksFrom none (rest ++ [']']) := if_neg hc
            rw [hlinks, ← ih none, if_neg hc]
            rfl
      | some read =>
          by_cases hc : (c == ']') = true
          · -- The brackets that were read so far are now those of a link.
            have hclosed := ih none
            have hlinks : linksFrom (some read) (c :: (rest ++ [']'])) =
                String.ofList read.reverse :: linksFrom none (rest ++ [']']) := if_pos hc
            have hsign : ¬ (c == '[') = true := by
              rw [eq_of_beq hc]
              decide
            rw [hlinks, weight_cons, String.toList_ofList, List.countP_reverse, if_neg hsign,
              List.length_cons, opened]
            rw [opened] at hclosed
            omega
          · have hopen := ih (some (c :: read))
            have hlinks : linksFrom (some read) (c :: (rest ++ [']'])) =
                linksFrom (some (c :: read)) (rest ++ [']']) := if_neg hc
            rw [hlinks, ← hopen, opened, opened, List.countP_cons]
            omega

/-- No link begins in a text without an opening bracket. -/
theorem linksFrom_append {cs : List Char} (h : '[' ∉ cs) (rest : List Char) :
    linksFrom none (cs ++ rest) = linksFrom none rest := by
  induction cs with
  | nil => rfl
  | cons c cs ih =>
      have hc : ¬ (c == '[') = true := by simpa using (List.ne_of_not_mem_cons h).symm
      exact (if_neg hc).trans (ih (List.not_mem_of_not_mem_cons h))

/-- A link goes up to the closing bracket. -/
theorem linksFrom_some {label : List Char} (h : ']' ∉ label) (read rest : List Char) :
    linksFrom (some read) (label ++ ']' :: rest) =
      String.ofList (read.reverse ++ label) :: linksFrom none rest := by
  induction label generalizing read with
  | nil => simp [linksFrom]
  | cons c label ih =>
      have hc : ¬ (c == ']') = true := by simpa using (List.ne_of_not_mem_cons h).symm
      have hlabel : ']' ∉ label := List.not_mem_of_not_mem_cons h
      rw [List.cons_append, linksFrom, if_neg hc, ih hlabel, List.reverse_cons, List.append_assoc,
        List.singleton_append]

/-- A text that neither ends a chain nor begins a link. -/
def IsUnmarked (text : String) : Prop := ';' ∉ text.toList ∧ '[' ∉ text.toList

instance (text : String) : Decidable (IsUnmarked text) := inferInstanceAs (Decidable (_ ∧ _))

end Text

open Text

/-- A label without the signs that divide the text of a graph. -/
def Label.IsPlain (label : String) : Prop :=
  ';' ∉ label.toList ∧ '[' ∉ label.toList ∧ ']' ∉ label.toList

instance (label : String) : Decidable (Label.IsPlain label) :=
  inferInstanceAs (Decidable (_ ∧ _ ∧ _))

namespace Label

/-- Only digits stand in a decimal number. -/
theorem not_mem_toDigits {sign : Char} (hsign : sign.isDigit = false) (n : Nat) :
    sign ∉ Nat.toDigits 10 n := by
  intro hmem
  rw [Decimal.isDigit_of_mem_toDigits sign hmem] at hsign
  cases hsign

theorem isPlain_raw (n : Nat) (stream : Stream) : IsPlain (raw n stream) := by
  have hfree {sign : Char} (hdigit : sign.isDigit = false) (hend : sign ∉ [':', stream.letter]) :
      sign ∉ (raw n stream).toList := by
    rw [toList_raw, List.mem_append, not_or]
    exact ⟨not_mem_toDigits hdigit n, hend⟩
  refine ⟨hfree rfl ?_, hfree rfl ?_, hfree rfl ?_⟩
  all_goals cases stream <;> decide

theorem isPlain_clipVideo (n : Nat) : IsPlain (clipVideo n) := by
  have hfree {sign : Char} (hdigit : sign.isDigit = false) (hletter : sign ≠ 'v') :
      sign ∉ (clipVideo n).toList := by
    rw [toList_clipVideo, List.mem_cons, not_or]
    exact ⟨hletter, not_mem_toDigits hdigit n⟩
  exact ⟨hfree rfl (by decide), hfree rfl (by decide), hfree rfl (by decide)⟩

end Label

namespace Node

variable {α : Type} [Arithmetic α]

/-- Labels between brackets are found as links. -/
theorem linksFrom_brackets {labels : List String} (h : ∀ label ∈ labels, Label.IsPlain label)
    (rest : List Char) :
    linksFrom none ((String.join (labels.map bracket)).toList ++ rest) =
      labels ++ linksFrom none rest := by
  induction labels with
  | nil => rfl
  | cons label labels ih =>
      have hlabel := (h label List.mem_cons_self).2.2
      have hbracket : (bracket label).toList = '[' :: (label.toList ++ [']']) := by
        simp [bracket]
      rw [List.map_cons, String.join_cons, String.toList_append, hbracket, List.append_assoc]
      change linksFrom (some []) ((label.toList ++ [']']) ++ _) = _
      rw [List.append_assoc, List.singleton_append, linksFrom_some hlabel, ih fun other hother =>
        h other (List.mem_cons_of_mem _ hother), List.reverse_nil, List.nil_append,
        String.ofList_toList, List.cons_append]

/-- The labels of a chain. -/
def labels (node : Node α) : List String := node.inputs ++ node.outputs

/-- The texts of the filters of a chain. -/
def filterTexts (node : Node α) : List String := node.filters.map Filter.render

/-- How many signs of a kind the text of a chain has: those in its filters, and those that
begin its labels. -/
theorem countP_render {kind : Char → Bool} {node : Node α}
    (hlabels : ∀ label ∈ node.labels, label.toList.countP kind = 0) (hcomma : kind ',' = false)
    (hclosing : kind ']' = false) :
    node.render.toList.countP kind =
      node.labels.length * ['['].countP kind + weight kind node.filterTexts := by
  have hbrackets (labels : List String) (h : ∀ label ∈ labels, label.toList.countP kind = 0) :
      weight kind (labels.map bracket) = labels.length * ['['].countP kind := by
    induction labels with
    | nil => rw [List.map_nil, weight_nil, List.length_nil, Nat.zero_mul]
    | cons label labels ih =>
        have hlabel := h label List.mem_cons_self
        have hbracket : (bracket label).toList = ['['] ++ label.toList ++ [']'] := by
          simp [bracket]
        have hlast : [']'].countP kind = 0 := List.countP_eq_zero.2 (by simpa using hclosing)
        have hothers : ∀ other ∈ labels, other.toList.countP kind = 0 :=
          fun other hother => h other (List.mem_cons_of_mem _ hother)
        rw [List.map_cons, weight_cons, ih hothers, hbracket, List.countP_append,
          List.countP_append, hlabel, hlast, List.length_cons, Nat.succ_mul]
        omega
  obtain ⟨hinputs, houtputs⟩ := List.forall_mem_append.1 hlabels
  have hsign : (",".toList).countP kind = 0 := List.countP_eq_zero.2 (by simpa using hcomma)
  rw [render, String.toList_append, String.toList_append, List.countP_append, List.countP_append,
    countP_join, countP_join, hbrackets _ hinputs, hbrackets _ houtputs,
    countP_intercalate_of_free hsign, labels, List.length_append, Nat.add_mul, filterTexts]
  omega

/-- The links in the text of a chain are its labels if none begins in a filter. -/
theorem linksFrom_render {node : Node α} (hlabels : ∀ label ∈ node.labels, Label.IsPlain label)
    (hfilters : weight (· == '[') node.filterTexts = 0) (rest : List Char) :
    linksFrom none (node.render.toList ++ rest) = node.labels ++ linksFrom none rest := by
  obtain ⟨hinputs, houtputs⟩ := List.forall_mem_append.1 hlabels
  have hnone : '[' ∉ (",".intercalate (node.filters.map Filter.render)).toList := by
    have hcount : (",".intercalate (node.filters.map Filter.render)).toList.countP (· == '[') = 0 :=
      (countP_intercalate_of_free rfl).trans hfilters
    intro hmem
    exact List.countP_eq_zero.1 hcount _ hmem rfl
  rw [render, String.toList_append, String.toList_append, List.append_assoc, List.append_assoc,
    linksFrom_brackets hinputs, linksFrom_append hnone, linksFrom_brackets houtputs, labels,
    List.append_assoc]

/-- A chain with a result ends with a bracket. -/
theorem exists_render_eq (node : Node α) (h : node.outputs ≠ []) :
    ∃ cs, node.render.toList = cs ++ [']'] := by
  obtain ⟨before, last, hlast⟩ := (List.eq_nil_or_concat node.outputs).resolve_left h
  refine ⟨(String.join (node.inputs.map bracket) ++
    ",".intercalate (node.filters.map Filter.render) ++
    String.join (before.map bracket) ++ "[" ++ last).toList, ?_⟩
  simp [render, hlast, bracket]

end Node

namespace Graph

variable {α : Type} [Arithmetic α]

/-- The labels of a graph, chain by chain. -/
def labels (graph : Graph α) : List String := graph.nodes.flatMap Node.labels

/-- The texts of the filters of a graph. -/
def filterTexts (graph : Graph α) : List String := graph.nodes.flatMap Node.filterTexts

/-- A graph of chains with results, whose labels are plain. -/
structure IsPlain (graph : Graph α) : Prop where
  nonempty : graph.nodes ≠ []
  labels : ∀ label ∈ graph.labels, Label.IsPlain label
  outputs : ∀ node ∈ graph.nodes, node.outputs ≠ []

/-- What the engine finds in the text of a graph is the graph: as many parts as there are chains,
and the labels of the chains as links. -/
def Shows (graph : Graph α) : Prop :=
  (graph.render.toList.splitOn ';').length = graph.nodes.length ∧
    linksIn graph.render = graph.labels

variable {graph : Graph α}

/-- How many signs of a kind the chains of a graph have. -/
theorem weight_render {kind : Char → Bool} {nodes : List (Node α)}
    (hlabels : ∀ label ∈ nodes.flatMap Node.labels, label.toList.countP kind = 0)
    (hcomma : kind ',' = false) (hclosing : kind ']' = false) :
    weight kind (nodes.map Node.render) =
      (nodes.flatMap Node.labels).length * ['['].countP kind +
        weight kind (nodes.flatMap Node.filterTexts) := by
  induction nodes with
  | nil => rw [List.flatMap_nil, List.length_nil, Nat.zero_mul]; rfl
  | cons node nodes ih =>
      rw [List.flatMap_cons] at hlabels
      obtain ⟨hnode, hrest⟩ := List.forall_mem_append.1 hlabels
      rw [List.map_cons, weight_cons, Node.countP_render hnode hcomma hclosing, ih hrest,
        List.flatMap_cons, List.flatMap_cons, List.length_append, weight_append, Nat.add_mul]
      omega

/-- A text of which every character differs from a sign has no such sign. -/
theorem countP_eq_zero_of_not_mem {sign : Char} {text : String} (h : sign ∉ text.toList) :
    text.toList.countP (· == sign) = 0 := by
  rw [List.countP_eq_zero]
  intro c hc hsign
  rw [eq_of_beq hsign] at hc
  exact h hc

/-- There are more parts than chains by the semicolons in the filters. -/
theorem length_parts (h : graph.IsPlain) :
    (graph.render.toList.splitOn ';').length =
      graph.nodes.length + weight (· == ';') graph.filterTexts := by
  have hlabels : ∀ label ∈ graph.labels, label.toList.countP (· == ';') = 0 :=
    fun label hlabel => countP_eq_zero_of_not_mem (h.labels label hlabel).1
  have hnodes := weight_render hlabels rfl rfl
  have hsome : graph.nodes.map Node.render ≠ [] := by simpa using h.nonempty
  have hparts := countP_intercalate (· == ';') ";" hsome
  have hsign : (";".toList).countP (· == ';') = 1 := rfl
  have hbracket : ['['].countP (· == ';') = 0 := rfl
  rw [hsign, hnodes, hbracket, List.length_map] at hparts
  rw [length_splitOn, render, filterTexts]
  omega

/-- There are more opening brackets than labels by those in the filters. -/
theorem countP_render (h : graph.IsPlain) :
    graph.render.toList.countP (· == '[') =
      graph.labels.length + weight (· == '[') graph.filterTexts := by
  have hlabels : ∀ label ∈ graph.labels, label.toList.countP (· == '[') = 0 :=
    fun label hlabel => countP_eq_zero_of_not_mem (h.labels label hlabel).2.1
  have hnodes := weight_render hlabels rfl rfl
  have hbracket : ['['].countP (· == '[') = 1 := rfl
  rw [render, countP_intercalate_of_free rfl, hnodes, hbracket, Nat.mul_one]
  rfl

/-- The links in the text of a graph are its labels if none begins in a filter. -/
theorem linksIn_render {nodes : List (Node α)}
    (hlabels : ∀ label ∈ nodes.flatMap Node.labels, Label.IsPlain label)
    (hfilters : weight (· == '[') (nodes.flatMap Node.filterTexts) = 0) :
    linksIn (";".intercalate (nodes.map Node.render)) = nodes.flatMap Node.labels := by
  induction nodes with
  | nil => rfl
  | cons node nodes ih =>
      rw [List.flatMap_cons] at hlabels hfilters
      obtain ⟨hnode, hrest⟩ := List.forall_mem_append.1 hlabels
      rw [weight_append] at hfilters
      have hnodeFilters : weight (· == '[') node.filterTexts = 0 := by omega
      by_cases hnone : nodes = []
      · subst hnone
        have hlinks := Node.linksFrom_render hnode hnodeFilters []
        have hend : linksFrom none [] = [] := rfl
        rw [List.append_nil, hend, List.append_nil] at hlinks
        rwa [List.map_singleton, String.intercalate_singleton, List.flatMap_singleton]
      · -- The sign between two chains begins no link either.
        have hsign : '[' ∉ ";".toList := by decide
        rw [List.map_cons, String.intercalate_cons_of_ne_nil (by simpa using hnone), linksIn,
          String.toList_append, String.toList_append, List.append_assoc,
          Node.linksFrom_render hnode hnodeFilters, linksFrom_append hsign, List.flatMap_cons,
          ← ih hrest (by omega), linksIn]

/-- Joined texts end with the last of them. -/
theorem exists_intercalate_eq (sign last : String) (texts : List String) :
    ∃ before, sign.intercalate (texts ++ [last]) = before ++ last := by
  induction texts with
  | nil => exact ⟨"", by simp⟩
  | cons s rest ih =>
      obtain ⟨before, hbefore⟩ := ih
      refine ⟨s ++ sign ++ before, ?_⟩
      rw [List.cons_append, String.intercalate_cons_of_ne_nil (by simp), hbefore]
      simp only [String.append_assoc]

/-- The text of a graph ends with a bracket. -/
theorem exists_render_eq (h : graph.IsPlain) : ∃ cs, graph.render.toList = cs ++ [']'] := by
  obtain ⟨chains, last, hlast⟩ := (List.eq_nil_or_concat graph.nodes).resolve_left h.nonempty
  obtain ⟨cs, hcs⟩ := Node.exists_render_eq last (h.outputs last (by simp [hlast]))
  obtain ⟨before, hbefore⟩ := exists_intercalate_eq ";" last.render (chains.map Node.render)
  refine ⟨before.toList ++ cs, ?_⟩
  rw [render, hlast, List.concat_eq_append, List.map_append, List.map_singleton, hbefore,
    String.toList_append, hcs, List.append_assoc]

/-- **The text of a graph shows the graph exactly if its filters do not mark chains or links.** -/
theorem shows_iff (h : graph.IsPlain) :
    graph.Shows ↔ ∀ text ∈ graph.filterTexts, IsUnmarked text := by
  have hparts := length_parts h
  constructor
  · -- Semicolons in filters are counted by the parts.  An opening bracket in a filter begins a link
    -- or stands in one, and there are only the labels for links, which have no brackets.
    rintro ⟨hlength, hlinks⟩
    have hsemicolons : weight (· == ';') graph.filterTexts = 0 := by omega
    have hplain : weight (· == '[') graph.labels = 0 := by
      rw [weight_eq_zero_iff]
      exact fun label hlabel c hc => by
        simpa using ne_of_mem_of_not_mem hc (h.labels label hlabel).2.1
    have hbrackets : weight (· == '[') graph.filterTexts = 0 := by
      obtain ⟨cs, hcs⟩ := exists_render_eq h
      have hcount := countP_bracket none cs
      rw [← hcs, ← linksIn, hlinks, hplain, opened] at hcount
      have hall := countP_render h
      omega
    intro text htext
    constructor
    · intro hmem
      simpa using weight_eq_zero_iff.1 hsemicolons text htext _ hmem
    · intro hmem
      simpa using weight_eq_zero_iff.1 hbrackets text htext _ hmem
  · intro hall
    have hweight (sign : Char) (hfree : ∀ text ∈ graph.filterTexts, sign ∉ text.toList) :
        weight (· == sign) graph.filterTexts = 0 := by
      rw [weight_eq_zero_iff]
      exact fun text htext c hc => by simpa using ne_of_mem_of_not_mem hc (hfree text htext)
    refine ⟨?_, linksIn_render h.labels (hweight '[' fun text htext => (hall text htext).2)⟩
    rw [hparts, hweight ';' fun text htext => (hall text htext).1, Nat.add_zero]

end Graph

end Montage
