import Mathlib.Data.List.Forall2
import Montage.Proofs.Filter
import Montage.Proofs.Graph.Text

/-!
# Reading a graph from its text

The text of a graph is put together without any escapes: chains between semicolons, links in
brackets in front of and behind the filters of a chain, filters between commas.  It can be taken
apart again if no label and no filter has one of these signs and no filter is empty
(`Graph.IsReadable`).

A chain is read from the front.  The links before the filters end where no bracket opens
(`leadingLinks`), the filters go up to the next bracket, and the links behind them are the rest.
What is read are the labels and the filters that were written (`readAll_render`), so graphs with
the same text have the same chains (`outlines_eq`).
-/

namespace Montage

namespace Text

/-- The links with which a text begins, and what stands behind them.  What has been read since an
opening bracket is kept last first. -/
def leadingLinks : Option (List Char) → List Char → List String × List Char
  | _, [] => ([], [])
  | none, c :: rest => if c == '[' then leadingLinks (some []) rest else ([], c :: rest)
  | some read, c :: rest =>
    if c == ']' then
      let (links, behind) := leadingLinks none rest
      (String.ofList read.reverse :: links, behind)
    else leadingLinks (some (c :: read)) rest

/-- No link begins where no bracket opens. -/
theorem leadingLinks_none {cs : List Char} (h : ∀ c ∈ cs.head?, c ≠ '[') :
    leadingLinks none cs = ([], cs) := by
  cases cs with
  | nil => rfl
  | cons c rest => exact if_neg (by simpa using h c rfl)

/-- A link goes up to the closing bracket, and the other links follow. -/
theorem leadingLinks_some {label : List Char} (h : ']' ∉ label) (read rest : List Char) :
    leadingLinks (some read) (label ++ ']' :: rest) =
      (String.ofList (read.reverse ++ label) :: (leadingLinks none rest).1,
        (leadingLinks none rest).2) := by
  induction label generalizing read with
  | nil => simp [leadingLinks]
  | cons c label ih =>
      have hc : ¬ (c == ']') = true := by simpa using (List.ne_of_not_mem_cons h).symm
      have hlabel : ']' ∉ label := List.not_mem_of_not_mem_cons h
      rw [List.cons_append, leadingLinks, if_neg hc, ih hlabel, List.reverse_cons,
        List.append_assoc, List.singleton_append]

/-- A text that can stand between commas in a chain: not empty, and without the signs that divide
the text of a graph. -/
def IsPiece (text : String) : Prop := text ≠ "" ∧ isQuiet text = true

instance (text : String) : Decidable (IsPiece text) := inferInstanceAs (Decidable (_ ∧ _))

end Text

open Text

/-- What the text of a chain shows of it: its labels and the texts of its filters. -/
structure Outline where
  inputs : List String
  filters : List String
  outputs : List String
  deriving DecidableEq

/-- Read a chain from its text. -/
def Outline.read (cs : List Char) : Outline :=
  let (inputs, behind) := leadingLinks none cs
  { inputs
    filters := ((behind.takeWhile (· != '[')).splitOn ',').map String.ofList
    outputs := linksFrom none (behind.dropWhile (· != '[')) }

/-- Read the chains of a graph from its text. -/
def Outline.readAll (text : String) : List Outline :=
  if text = "" then [] else (text.toList.splitOn ';').map read

namespace Node

variable {α : Type} [Arithmetic α]

/-- The outline of a chain. -/
def outline (node : Node α) : Outline := ⟨node.inputs, node.filterTexts, node.outputs⟩

/-- Labels between brackets are found as the links with which a text begins. -/
theorem leadingLinks_brackets {labels : List String} {rest : List Char}
    (h : ∀ label ∈ labels, Label.IsPlain label) (hrest : ∀ c ∈ rest.head?, c ≠ '[') :
    leadingLinks none ((String.join (labels.map bracket)).toList ++ rest) = (labels, rest) := by
  induction labels with
  | nil => exact leadingLinks_none hrest
  | cons label labels ih =>
      have hlabel := (h label List.mem_cons_self).2.2
      have hbracket : (bracket label).toList = '[' :: (label.toList ++ [']']) := by
        simp [bracket]
      rw [List.map_cons, String.join_cons, String.toList_append, hbracket, List.append_assoc]
      change leadingLinks (some []) ((label.toList ++ [']']) ++ _) = _
      rw [List.append_assoc, List.singleton_append, leadingLinks_some hlabel,
        ih fun other hother => h other (List.mem_cons_of_mem _ hother), List.reverse_nil,
        List.nil_append, String.ofList_toList]

/-- Behind the filters no text is left, or a bracket opens. -/
theorem head?_brackets (labels : List String) :
    ∀ c ∈ (String.join (labels.map bracket)).toList.head?, c = '[' := by
  cases labels with
  | nil => exact nofun
  | cons label rest =>
      intro c hc
      have hbracket : (bracket label).toList = '[' :: (label.toList ++ [']']) := by
        simp [bracket]
      rw [List.map_cons, String.join_cons, String.toList_append, hbracket] at hc
      exact (Option.some.inj hc).symm

/-- Labels between brackets have no semicolons if the labels have none. -/
theorem semicolon_not_mem_brackets {labels : List String}
    (h : ∀ label ∈ labels, Label.IsPlain label) :
    ';' ∉ (String.join (labels.map bracket)).toList := by
  induction labels with
  | nil => exact List.not_mem_nil
  | cons label rest ih =>
      obtain ⟨hlabel, hrest⟩ := List.forall_mem_cons.1 h
      rw [List.map_cons, String.join_cons, String.toList_append, List.mem_append, not_or]
      exact ⟨by simpa [bracket] using hlabel.1, ih hrest⟩

/-- The filters of a chain between commas. -/
def chainText (node : Node α) : String := ",".intercalate node.filterTexts

theorem toList_render (node : Node α) :
    node.render.toList = (String.join (node.inputs.map bracket)).toList ++
      (node.chainText.toList ++ (String.join (node.outputs.map bracket)).toList) := by
  rw [render, String.toList_append, String.toList_append, List.append_assoc]
  rfl

/-- A chain that can be read from its text: it has filters, and neither its labels nor its filters
can be taken for anything else. -/
structure IsReadable (node : Node α) : Prop where
  hasFilter : node.filters ≠ []
  labels : ∀ label ∈ node.labels, Label.IsPlain label
  filters : ∀ text ∈ node.filterTexts, IsPiece text

instance (node : Node α) : Decidable node.IsReadable :=
  decidable_of_iff (node.filterTexts ≠ [] ∧ (∀ label ∈ node.labels, Label.IsPlain label) ∧
      ∀ text ∈ node.filterTexts, IsPiece text)
    ⟨fun ⟨hsome, hlabels, hfilters⟩ => ⟨by simpa [filterTexts] using hsome, hlabels, hfilters⟩,
      fun h => ⟨by simpa [filterTexts] using h.hasFilter, h.labels, h.filters⟩⟩

namespace IsReadable

variable {node : Node α} (h : node.IsReadable)
include h

theorem filterTexts_ne_nil : node.filterTexts ≠ [] := by
  simpa [filterTexts] using h.hasFilter

/-- Between the filters there are only commas. -/
theorem not_mem_chainText {sign : Char} (hsign : sign ∈ dividers) (hcomma : sign ∉ ",".toList) :
    sign ∉ node.chainText.toList :=
  not_mem_intercalate hcomma fun text htext => isQuiet_iff.1 (h.filters text htext).2 sign hsign

theorem chainText_ne_empty : node.chainText ≠ "" :=
  intercalate_ne_empty h.filterTexts_ne_nil fun text htext => (h.filters text htext).1

/-- The filters follow the links at the beginning. -/
theorem head?_chain (rest : List Char) : ∀ c ∈ (node.chainText.toList ++ rest).head?, c ≠ '[' := by
  intro c hc
  rintro rfl
  have hbracket : '[' ∉ node.chainText.toList :=
    h.not_mem_chainText (by decide) (by decide)
  have hsome := h.chainText_ne_empty
  cases hchain : node.chainText.toList with
  | nil => exact hsome (String.toList_eq_nil_iff.1 hchain)
  | cons first others =>
      rw [hchain] at hc hbracket
      rw [Option.some.inj hc] at hbracket
      exact hbracket List.mem_cons_self

/-- **A chain is read from its text.** -/
theorem read_render : Outline.read node.render.toList = node.outline := by
  obtain ⟨hinputs, houtputs⟩ := List.forall_mem_append.1 h.labels
  have hfree : ∀ c ∈ node.chainText.toList, (c != '[') = true := fun c hc => by
    simpa using ne_of_mem_of_not_mem hc (h.not_mem_chainText (by decide) (by decide))
  have hcommas : ∀ text ∈ node.filterTexts, ',' ∉ text.toList :=
    fun text htext => isQuiet_iff.1 (h.filters text htext).2 ',' (by decide)
  have hfilters : (node.chainText.toList.splitOn ',').map String.ofList = node.filterTexts :=
    map_ofList_splitOn_intercalate rfl hcommas h.filterTexts_ne_nil
  have hlinks := linksFrom_brackets houtputs []
  have hnone : linksFrom none [] = [] := rfl
  rw [List.append_nil, hnone, List.append_nil] at hlinks
  -- The filters end where the first link behind them begins.
  obtain ⟨htaken, hleft⟩ :
      (String.join (node.outputs.map bracket)).toList.takeWhile (· != '[') = [] ∧
      (String.join (node.outputs.map bracket)).toList.dropWhile (· != '[') =
        (String.join (node.outputs.map bracket)).toList := by
    have hhead := head?_brackets node.outputs
    cases htext : (String.join (node.outputs.map bracket)).toList with
    | nil => exact ⟨rfl, rfl⟩
    | cons c rest =>
        rw [htext] at hhead
        rw [hhead c rfl]
        exact ⟨rfl, rfl⟩
  unfold Outline.read
  rw [toList_render, leadingLinks_brackets hinputs (h.head?_chain _)]
  simp only [List.takeWhile_append_of_pos hfree, List.dropWhile_append_of_pos hfree, htaken, hleft,
    List.append_nil, hfilters, hlinks]
  rfl

/-- No chain ends within a chain. -/
theorem semicolon_not_mem_render : ';' ∉ node.render.toList := by
  obtain ⟨hinputs, houtputs⟩ := List.forall_mem_append.1 h.labels
  rw [toList_render, List.mem_append, List.mem_append, not_or, not_or]
  exact ⟨semicolon_not_mem_brackets hinputs, h.not_mem_chainText (by decide) (by decide),
    semicolon_not_mem_brackets houtputs⟩

theorem render_ne_empty : node.render ≠ "" := by
  intro hempty
  have hchain : node.chainText.toList = [] := by
    have hlist := congrArg String.toList hempty
    rw [toList_render, String.toList_empty, List.append_eq_nil_iff, List.append_eq_nil_iff] at hlist
    exact hlist.2.1
  exact h.chainText_ne_empty (String.toList_eq_nil_iff.1 hchain)

end IsReadable

end Node

namespace Graph

variable {α : Type} [Arithmetic α]

/-- A graph whose chains can be read from its text. -/
def IsReadable (graph : Graph α) : Prop := ∀ node ∈ graph.nodes, node.IsReadable

/-- **The chains of a graph are read from its text.** -/
theorem readAll_render {graph : Graph α} (h : graph.IsReadable) :
    Outline.readAll graph.render = graph.nodes.map Node.outline := by
  by_cases hnodes : graph.nodes = []
  · rw [render, hnodes]
    rfl
  · have htexts : graph.nodes.map Node.render ≠ [] := by simpa using hnodes
    have hsome : graph.render ≠ "" := intercalate_ne_empty htexts <|
      List.forall_mem_map.2 fun node hnode => (h node hnode).render_ne_empty
    have hparts : graph.render.toList.splitOn ';' =
        (graph.nodes.map Node.render).map String.toList :=
      splitOn_intercalate_toList rfl
        (List.forall_mem_map.2 fun node hnode => (h node hnode).semicolon_not_mem_render) htexts
    rw [Outline.readAll, if_neg hsome, hparts, List.map_map, List.map_map]
    exact List.map_congr_left fun node hnode => (h node hnode).read_render

instance (graph : Graph α) : Decidable graph.IsReadable :=
  inferInstanceAs (Decidable (∀ node ∈ graph.nodes, node.IsReadable))

/-- Graphs with the same text have the same outlines. -/
theorem outlines_eq {graph other : Graph α} (h : graph.IsReadable) (hother : other.IsReadable)
    (hrender : graph.render = other.render) :
    List.Forall₂ (fun node node' => node.outline = node'.outline) graph.nodes other.nodes := by
  have hsame : graph.nodes.map Node.outline = other.nodes.map Node.outline := by
    rw [← readAll_render h, hrender, readAll_render hother]
  rw [← List.forall₂_map_left_iff (R := fun outline node' => outline = Node.outline node'),
    ← List.forall₂_map_right_iff, hsame]
  exact List.forall₂_refl _

end Graph

end Montage
