import Montage.Yaml.Node
import Montage.Yaml.Scalars

/-!
# Values of documents

The value that a document stands for.  A node is built before the nodes inside
it: first the root, then all nodes one level below from left to right, and so
on.  So of several failures the least deep counts, and of those the leftmost.
-/

namespace Montage.Yaml

/-- The value of a node, and the first failure on each level of it. -/
structure Built where
  value : Value
  failures : List (Option Error) := []

namespace Built

/-- Failures of two neighbours by level; on each level the left one comes
first. -/
def beside : List (Option Error) → List (Option Error) → List (Option Error)
  | [], right => right
  | left, [] => left
  | l :: left, r :: right => (l <|> r) :: beside left right

/-- A node that fails as soon as it is built. -/
def failed (failure : Error) : Built := ⟨.null, [some failure]⟩

/-- A node that is built at once. -/
def ofExcept : Except Error Value → Built
  | .ok value => ⟨value, []⟩
  | .error failure => failed failure

/-- A node with others one level below. -/
def around (value : Value) (inner : List (Option Error)) : Built := ⟨value, none :: inner⟩

/-- A list with its items one level below. -/
def aroundList (items : List Built) : Built :=
  around (.list (items.map (·.value))) (items.foldl (fun done b => beside done b.failures) [])

/-- The value, unless something failed. -/
def outcome (b : Built) : Except Error Value :=
  match b.failures.filterMap id with
  | [] => .ok b.value
  | failure :: _ => .error failure

end Built

namespace Node

/-- The text of a node that should be a scalar.  A mapping stands for its
default value, if it has one. -/
def text : Node → Except Error String
  | scalar _ s => .ok s
  | sequence _ _ => .error .malformed
  | mapping _ entries => defaultText entries
where
  /-- The text of the default value among some entries. -/
  defaultText : List (Node × Node) → Except Error String
    | [] => .error .malformed
    | (key, value) :: rest => if key.tag == .defaultValue then value.text else defaultText rest

/-- A default-value key counts as a text among ordinary entries. -/
def asKey : Node → Node
  | scalar .defaultValue s => scalar .text s
  | sequence .defaultValue items => sequence .text items
  | mapping .defaultValue entries => mapping .text entries
  | node => node

/-- The entries of a mapping with those it takes over from other mappings in
front.  Of several mappings to take over in a list, the first counts most. -/
def flatten : Nat → List (Node × Node) → Except Error (List (Node × Node))
  | 0, _ => .error .malformed
  | fuel + 1, entries => do
    let entriesOf (node : Node) : Except Error (List (Node × Node)) :=
      match node with
      | mapping _ inner => flatten fuel inner
      | _ => .error .malformed
    let takenOver (entry : Node × Node) : Except Error (List (Node × Node)) := do
      if entry.1.tag != .merge then return []
      match entry.2 with
      | sequence _ items => return (← items.mapM entriesOf).reverse.flatten
      | node => entriesOf node
    let merged ← entries.mapM takenOver
    let own := entries.filter fun entry => entry.1.tag != .merge
    return merged.flatten ++ own.map fun (key, value) => (key.asKey, value)

/-- Build a node and all that is inside. -/
def build : Nat → Node → Built
  | 0, _ => .failed .malformed
  | fuel + 1, node =>
    let ofText (read : String → Except Error Value) : Built := .ofExcept (node.text >>= read)
    let entriesOf (make : List (Value × Value) → Value) : Built :=
      match node with
      | mapping _ entries =>
        match flatten fuel entries with
        | .error failure => .around (make []) [some failure]
        | .ok entries =>
          let built := entries.map fun (key, value) => (build fuel key, build fuel value)
          let failures := built.foldl (fun done (key, value) =>
            let unusable := if key.value.isKey then [] else [some Error.malformed]
            Built.beside done (Built.beside key.failures (Built.beside unusable value.failures))) []
          let content :=
            built.foldl (fun done (key, value) => Value.put done key.value value.value) []
          .around (make content) failures
      | _ => .around (make []) [some .malformed]
    let pairsOf : Built :=
      match node with
      | sequence _ items =>
        let built := items.map fun item =>
          match item with
          | mapping _ [(key, value)] =>
            let key := build fuel key
            let value := build fuel value
            (⟨.pair key.value value.value, Built.beside key.failures value.failures⟩ : Built)
          | _ => .failed .malformed
        .aroundList built
      | _ => .around (.list []) [some .malformed]
    match node.tag with
    | .null => ofText fun _ => .ok .null
    | .bool => ofText Scalars.bool
    | .int => ofText Scalars.int
    | .float => ofText Scalars.float
    | .text => ofText fun s => .ok (.text s)
    | .binary => ofText Scalars.binary
    | .timestamp =>
      match node with
      | scalar _ _ => ofText Scalars.timestamp
      | _ => ofText fun _ => .error (.fault .wrongType)
    | .orderedMap | .pairs => pairsOf
    | .set => entriesOf fun entries => .set (entries.map Prod.fst)
    | .sequence =>
      match node with
      | sequence _ items =>
        let built := items.map (build fuel)
        .aroundList built
      | _ => .around (.list []) [some .malformed]
    | .mapping => entriesOf .map
    | .merge | .defaultValue | .other _ => .failed .malformed

end Node

/-- The value of the one document of a text; no value if there is no
document. -/
def read (text : List Char) : Except Error Value := do
  match ← compose text with
  | none => return .null
  | some node => (node.build (node.height + 1)).outcome

end Montage.Yaml
