import Montage.Filter
import Montage.Graph.Label

/-!
# Filter graphs

A graph is a list of chains.  Each chain reads labelled streams, passes them
through its filters and labels what comes out; a graph has at most one video and
one audio result.
-/

namespace Montage

/-- A chain of filters between labelled links. -/
structure Node (α : Type) where
  inputs : List String
  filters : List (Filter α)
  outputs : List String

/-- A graph with the labels of its results. -/
structure Graph (α : Type) where
  nodes : List (Node α)
  video : Option String := none
  audio : Option String := none

variable {α : Type} [Arithmetic α]

namespace Node

/-- A label between square brackets. -/
def bracket (label : String) : String := "[" ++ label ++ "]"

/-- The text of a chain: its inputs, its filters between commas, its outputs. -/
def render (node : Node α) : String :=
  String.join (node.inputs.map bracket) ++
    ",".intercalate (node.filters.map Filter.render) ++
    String.join (node.outputs.map bracket)

end Node

namespace Graph

/-- The text of a graph: its chains between semicolons. -/
def render (graph : Graph α) : String :=
  ";".intercalate (graph.nodes.map Node.render)

/-- The labels of the results, each once. -/
def results (graph : Graph α) : List String :=
  match graph.video, graph.audio with
  | some v, some a => if v == a then [v] else [v, a]
  | some v, none => [v]
  | none, some a => [a]
  | none, none => []

end Graph

end Montage
