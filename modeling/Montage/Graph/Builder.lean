import Montage.Graph.Basic

/-!
# Building graphs

A builder takes chains one after another and checks their labels.  Labels are
checked one at a time and noted as soon as they pass, so a chain that is refused
leaves behind the notes made before the refusal.
-/

namespace Montage

/-- The chains taken so far, with the labels they produced and read. -/
structure Builder (α : Type) where
  nodes : List (Node α) := []
  produced : List String := []
  consumed : List String := []

variable {α : Type}

namespace Builder

/-- No chains yet. -/
def empty : Builder α := {}

/-- Note that a chain reads a label. -/
def consume (b : Builder α) (label : String) : Except PlanCause (Builder α) :=
  if Label.isRaw label then .ok b
  else if !b.produced.contains label then .error (.notProduced label)
  else if b.consumed.contains label then .error (.consumedTwice label)
  else .ok { b with consumed := b.consumed ++ [label] }

/-- Note that a chain produces a label. -/
def produce (b : Builder α) (label : String) : Except PlanCause (Builder α) :=
  if b.produced.contains label || Label.isRaw label then .error (.duplicate label)
  else .ok { b with produced := b.produced ++ [label] }

/-- Note labels one after another, up to the first that is refused. -/
def note (step : Builder α → String → Except PlanCause (Builder α)) (b : Builder α) :
    List String → Builder α × Except PlanCause Unit
  | [] => (b, .ok ())
  | label :: rest =>
    match step b label with
    | .ok b' => note step b' rest
    | .error cause => (b, .error cause)

/-- Take a chain.  The builder is returned in the state reached, also after a
refusal. -/
def addChain (b : Builder α) (inputs : List String) (filters : List (Filter α))
    (outputs : List String) : Builder α × Except PlanCause (Node α) :=
  if filters.isEmpty then (b, .error .emptyChain)
  else
    match note consume b inputs with
    | (b, .error cause) => (b, .error cause)
    | (b, .ok ()) =>
      match note produce b outputs with
      | (b, .error cause) => (b, .error cause)
      | (b, .ok ()) =>
        let node : Node α := ⟨inputs, filters, outputs⟩
        ({ b with nodes := b.nodes ++ [node] }, .ok node)

/-- Take a chain, or stop at the refusal. -/
def chain (b : Builder α) (inputs : List String) (filters : List (Filter α))
    (outputs : List String) : Except PlanCause (Builder α) :=
  match b.addChain inputs filters outputs with
  | (b, .ok _) => .ok b
  | (_, .error cause) => .error cause

/-- Pass the video of one input through filters, and return the label of the
result; without filters that is the raw stream itself. -/
def addClipVideo (b : Builder α) (index : Int) (filters : List (Filter α)) :
    Builder α × Except PlanCause String :=
  let input := Label.raw index .video
  if filters.isEmpty then (b, .ok input)
  else
    let output := Label.clipVideo index
    match b.addChain [input] filters [output] with
    | (b, .ok _) => (b, .ok output)
    | (b, .error cause) => (b, .error cause)

/-- Whether no chain was taken. -/
def isEmpty (b : Builder α) : Bool := b.nodes.isEmpty

/-- The labels that were produced and not read. -/
def terminals (b : Builder α) : List String :=
  b.produced.filter fun label => !b.consumed.contains label

/-- The graph with the given results.  They have to be exactly the labels that
no chain reads. -/
def build (b : Builder α) (video audio : Option String) : Except PlanCause (Graph α) :=
  if b.isEmpty then .error .emptyGraph
  else
    let named := [video, audio].filterMap id
    match named.find? fun label => !b.terminals.contains label with
    | some label => .error (.notTerminal label)
    | none =>
      let dangling := b.terminals.filter fun label => !named.contains label
      if dangling.isEmpty then .ok ⟨b.nodes, video, audio⟩
      else .error (.dangling (Label.sort dangling))

end Builder

end Montage
