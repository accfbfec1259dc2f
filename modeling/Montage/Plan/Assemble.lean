import Montage.Plan.Basic

/-!
# Assembling plans

Inputs, graph, maps and options become a plan only if they agree: every input
that is named exists, and every result of the graph goes into the output.
-/

namespace Montage

variable {α : Type}

namespace Plan

/-- Every raw stream that a chain reads belongs to one of `count` inputs. -/
def checkReads (count : Nat) : List String → Except Failure Unit
  | [] => .ok ()
  | label :: rest =>
    match Label.rawInput? label with
    | .error fault => .error (.fault fault)
    | .ok none => checkReads count rest
    | .ok (some n) =>
      if n ≥ count then .error (.plan (.readsMissingInput label count)) else checkReads count rest

/-- Whether the stream kind of a map is one the engine knows. -/
def knowsStream (stream : Option String) : Bool :=
  stream == some "v" || stream == some "a"

/-- Every map names a result of the graph or a stream of one of `count`
inputs. -/
def checkMaps (results : List String) (count : Nat) : List StreamMap → Except PlanCause Unit
  | [] => .ok ()
  | m :: rest =>
    match m.label with
    | some label =>
      if results.contains label then checkMaps results count rest
      else .error (.notGraphOutput label)
    | none =>
      match m.input with
      | none => .error (.malformedMap m.shown)
      | some n =>
        if !knowsStream m.stream then .error (.malformedMap m.shown)
        else if 0 ≤ n && n < count then checkMaps results count rest
        else .error (.mapsMissingInput m.render)

/-- The results of the graph that no map names. -/
def unmapped (results : List String) (maps : List StreamMap) : List String :=
  results.filter fun label => !(maps.filterMap (·.label)).contains label

/-- The labels that the chains of a graph read, in order. -/
def reads (graph : Option (Graph α)) : List String :=
  match graph with
  | none => []
  | some g => g.nodes.flatMap (·.inputs)

/-- Put the parts of a plan together if they agree. -/
def assemble [Arithmetic α] (inputs : List Input) (graph : Option (Graph α)) (maps : List StreamMap)
    (options : OutputOptions α) (target : String) (estimate : Option α) :
    Except Failure (Plan α) := do
  if inputs.isEmpty then throw (.plan .noInputs)
  if target.isEmpty then throw (.plan .noTarget)
  checkReads inputs.length (reads graph)
  let results := match graph with
    | none => []
    | some g => g.results
  (checkMaps results inputs.length maps).mapError .plan
  let missing := unmapped results maps
  unless missing.isEmpty do throw (.plan (.neverMapped (Label.sort missing)))
  match options.duration with
  | some d =>
    if Arithmetic.isAtMostZero d then throw (.plan (.durationNotPositive (Arithmetic.text d)))
  | none => pure ()
  return { inputs, graph, maps, options, target, estimate }

end Plan

end Montage
