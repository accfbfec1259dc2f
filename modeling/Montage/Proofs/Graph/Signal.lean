import Montage.Graph.Basic
import Montage.Proofs.Graph.Label

/-!
# The streams of a graph

What comes out of a graph is found by going through its chains in order.  Every label
stands for a stream: a raw label for the stream of an input, and a label that a chain
produces for one of the results of its filters, applied to the streams that the chain
reads.  Nothing is computed with the streams, so that the result shows how each of them
comes about (`Graph.evaluate`).
-/

namespace Montage

variable {α : Type}

/-- A stream by the way it comes about. -/
inductive Signal (α : Type)
  /-- The stream of an input that a raw label names. -/
  | raw (label : String)
  /-- One of the results of filters that are applied to other streams. -/
  | result (sources : List (Signal α)) (filters : List (Filter α)) (number : Nat)

/-- The streams for which labels stand. -/
abbrev Signals (α : Type) := String → Option (Signal α)

/-- The kind of a raw label. -/
def Label.kind? (label : String) : Option Stream := (rawParts? label.toList).map Prod.snd

theorem Label.kind?_raw (n : Nat) (stream : Stream) : kind? (raw n stream) = some stream := by
  rw [kind?, rawParts?_raw, Option.map_some]

theorem Label.kind?_of_not_raw {label : String} (h : isRaw label = false) :
    kind? label = none := by
  have hnone : rawParts? label.toList = none := by simpa [isRaw] using h
  rw [kind?, hnone, Option.map_none]

/-- Whether a label is the raw label of a sound. -/
def Label.isSound (label : String) : Bool := kind? label == some .audio

theorem Label.isSound_raw (n : Nat) (stream : Stream) :
    isSound (raw n stream) = decide (stream = .audio) := by
  rw [isSound, kind?_raw]
  cases stream <;> rfl

namespace Signal

/-- Before any chain, labels stand for the streams of the inputs. -/
def start : Signals α := fun label => if Label.isRaw label then some (.raw label) else none

theorem start_raw (n : Nat) (stream : Stream) :
    (start (Label.raw n stream) : Option (Signal α)) = some (.raw (Label.raw n stream)) :=
  if_pos (Label.isRaw_raw n stream)

/-- The kind of a stream: filters that turn one stream into one keep its kind. -/
def kind? : Signal α → Option Stream
  | raw label => Label.kind? label
  | result [source] _ 0 => source.kind?
  | result _ _ _ => none

end Signal

/-- What labels stand for after a chain; nothing if the chain reads a label that stands for
no stream. -/
def Node.evaluate (node : Node α) (signals : Signals α) : Option (Signals α) :=
  match node.inputs.mapM signals with
  | none => none
  | some sources => some fun label =>
    match node.outputs.idxOf? label with
    | some number => some (.result sources node.filters number)
    | none => signals label

namespace Graph

/-- What labels stand for after several chains. -/
def evaluateFrom : List (Node α) → Signals α → Option (Signals α)
  | [], signals => some signals
  | node :: rest, signals => (node.evaluate signals).bind (evaluateFrom rest)

/-- What labels stand for in a graph. -/
def evaluate (graph : Graph α) : Option (Signals α) := evaluateFrom graph.nodes Signal.start

theorem evaluateFrom_append (first second : List (Node α)) (signals : Signals α) :
    evaluateFrom (first ++ second) signals =
      (evaluateFrom first signals).bind (evaluateFrom second) := by
  induction first generalizing signals with
  | nil => rfl
  | cons node rest ih =>
      rw [List.cons_append, evaluateFrom, evaluateFrom, Option.bind_assoc]
      congr 1
      funext between
      exact ih between

theorem evaluateFrom_singleton (node : Node α) (signals : Signals α) :
    evaluateFrom [node] signals = node.evaluate signals := by
  cases h : node.evaluate signals <;> simp [evaluateFrom, h]

end Graph

/-- A chain that is evaluated gives its outputs, in order, and leaves all other labels. -/
theorem Node.evaluate_eq_some {node : Node α} {signals : Signals α} {sources : List (Signal α)}
    (h : node.inputs.mapM signals = some sources) :
    ∃ after, node.evaluate signals = some after ∧
      (∀ label number, node.outputs.idxOf? label = some number →
        after label = some (.result sources node.filters number)) ∧
      ∀ label ∉ node.outputs, after label = signals label := by
  refine ⟨_, by rw [evaluate, h], fun label number hnumber => ?_, fun label hlabel => ?_⟩
  · simp only [hnumber]
  · have hnone : node.outputs.idxOf? label = none := List.idxOf?_eq_none_iff.2 hlabel
    simp only [hnone]

/-- The streams of groups of labels are the streams of each group, one after another. -/
theorem mapM_flatMap {β : Type} {signals : Signals α} {labels : β → List String}
    {streams : β → List (Signal α)} {items : List β}
    (h : ∀ item ∈ items, (labels item).mapM signals = some (streams item)) :
    (items.flatMap labels).mapM signals = some (items.flatMap streams) := by
  induction items with
  | nil => rfl
  | cons item rest ih =>
      have hfirst := h item (by simp)
      have hrest := ih fun other hother => h other (List.mem_cons_of_mem item hother)
      rw [List.flatMap_cons, List.flatMap_cons, List.mapM_append, hfirst, hrest]
      rfl

end Montage
