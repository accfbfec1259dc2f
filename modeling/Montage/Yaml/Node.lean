import Montage.Yaml.Tag
import Montage.Yaml.Token

/-!
# Nodes of a YAML document

The tree of nodes that the tokens of a document spell.  An anchor names a node;
an alias stands for the node so named before it.
-/

namespace Montage.Yaml

/-- A node with its kind. -/
inductive Node
  | scalar (tag : Tag) (text : String)
  | sequence (tag : Tag) (items : List Node)
  | mapping (tag : Tag) (entries : List (Node × Node))

namespace Node

/-- The node that stands where nothing is written. -/
def empty : Node := .scalar .null ""

instance : Inhabited Node := ⟨empty⟩

/-- The kind of a node. -/
def tag : Node → Tag
  | scalar tag _ => tag
  | sequence tag _ => tag
  | mapping tag _ => tag

/-- The number of levels of a node. -/
def height : Node → Nat
  | scalar _ _ => 1
  | sequence _ items => itemsHeight items + 1
  | mapping _ entries => entriesHeight entries + 1
where
  /-- The number of levels below a sequence. -/
  itemsHeight : List Node → Nat
    | [] => 0
    | node :: rest => max node.height (itemsHeight rest)
  /-- The number of levels below a mapping. -/
  entriesHeight : List (Node × Node) → Nat
    | [] => 0
    | (k, v) :: rest => max (max k.height v.height) (entriesHeight rest)

end Node

/-- What is known while the tokens of a document are read. -/
structure Reading where
  tokens : List Token
  /-- The failure that stands behind the last token. -/
  failure : Error := .malformed
  /-- The stems of tag handles. -/
  handles : List (String × String) := []
  /-- The anchors so far with their nodes; a node that is not complete has none
  yet. -/
  anchors : List (String × Option Node) := []
  /-- The number of collections that are being read, one inside the other. -/
  level : Nat := 0

/-- A step of reading tokens. -/
abbrev Reader := StateT Reading (Except Error)

namespace Reader

/-- The next token. -/
def peek : Reader Token := do
  let r ← get
  match r.tokens with
  | token :: _ => return token
  | [] => throw r.failure

/-- Move past the next token. -/
def advance : Reader Unit := modify fun r => { r with tokens := r.tokens.drop 1 }

/-- Move past the next token if it is the given one. -/
def accept (token : Token) : Reader Bool := do
  if (← peek) == token then
    advance
    return true
  return false

/-- Move past the given token, which has to be next. -/
def expect (token : Token) : Reader Unit := do
  if !(← accept token) then throw .malformed

/-- Whether the next token is one of several. -/
def isAt (tokens : List Token) : Reader Bool := do
  return tokens.contains (← peek)

/-- The full name of a tag. -/
def fullName (handle : Option String) (rest : String) : Reader String := do
  match handle with
  | none => return rest
  | some handle =>
    let r ← get
    match r.handles.lookup handle with
    | some stem => return stem ++ rest
    | none => throw .malformed

/-- Note an anchor, which must not be there yet. -/
def openAnchor (name : String) : Reader Unit := do
  let r ← get
  if (r.anchors.lookup name).isSome then throw .malformed
  set { r with anchors := (name, none) :: r.anchors }

/-- Note the node of an anchor. -/
def closeAnchor (name : String) (node : Node) : Reader Unit :=
  modify fun r => { r with anchors := (name, some node) :: r.anchors.filter fun a => a.1 != name }

/-- The node that an alias stands for.  Inside that node itself the alias would close
a circle, which is cut: an empty list stands there. -/
def resolve (name : String) : Reader Node := do
  let r ← get
  match r.anchors.lookup name with
  | some (some node) => return node
  | some none => return .sequence .sequence []
  | none => throw .malformed

/-- The most collections that are read one inside the other: the runtime takes two
calls for each. -/
def levelLimit : Nat := callLimit / 2

/-- Read what stands inside a collection. -/
def inside {α : Type} (content : Reader α) : Reader α := do
  let r ← get
  if r.level ≥ levelLimit then throw (.fault .endless)
  set { r with level := r.level + 1 }
  let result ← content
  modify fun later => { later with level := r.level }
  return result

/-- The anchor and the tag before a node, in either order. -/
def properties : Reader (Option String × Option String) := do
  match ← peek with
  | .anchor name =>
    advance
    match ← peek with
    | .tag handle rest =>
      advance
      return (some name, some (← fullName handle rest))
    | _ => return (some name, none)
  | .tag handle rest =>
    advance
    match ← peek with
    | .anchor name =>
      advance
      return (some name, some (← fullName handle rest))
    | _ => return (none, some (← fullName handle rest))
  | _ => return (none, none)

/-- The kind of a scalar, from its tag if it has one and its spelling if it is
plain. -/
def scalarTag (tag : Option String) (plain : Bool) (text : String) : Tag :=
  match tag with
  | some name => if name == "!" then Tag.ofPlain text else Tag.ofName name
  | none => if plain then Tag.ofPlain text else .text

/-- The kind of a collection, from its tag if it has one. -/
def collectionTag (tag : Option String) (usual : Tag) : Tag :=
  match tag with
  | some name => if name == "!" then usual else Tag.ofName name
  | none => usual

mutual

/-- A node.  Block collections count only where `block` is set; a list at the
column of its key only where `indentless` is set. -/
def node (fuel : Nat) (block indentless : Bool) : Reader Node := do
  match fuel with
  | 0 => throw .malformed
  | fuel + 1 =>
    match ← peek with
    | .alias name =>
      advance
      resolve name
    | _ =>
      let (anchor, tag) ← properties
      match anchor with
      | some name => openAnchor name
      | none => pure ()
      let result ← content fuel block indentless (anchor.isSome || tag.isSome) tag
      match anchor with
      | some name => closeAnchor name result
      | none => pure ()
      return result

/-- What stands after the properties of a node. -/
def content (fuel : Nat) (block indentless hasProperties : Bool) (tag : Option String) :
    Reader Node := do
  match fuel with
  | 0 => throw .malformed
  | fuel + 1 =>
    match ← peek with
    | .scalar text plain =>
      advance
      return .scalar (scalarTag tag plain text) text
    | .flowSequenceStart =>
      advance
      return .sequence (collectionTag tag .sequence) (← inside (flowItems fuel true))
    | .flowMappingStart =>
      advance
      return .mapping (collectionTag tag .mapping) (← inside (flowEntries fuel true))
    | token =>
      if token == .blockItem && indentless then
        return .sequence (collectionTag tag .sequence) (← inside (indentlessItems fuel))
      else if token == .blockSequenceStart && block then
        advance
        return .sequence (collectionTag tag .sequence) (← inside (blockItems fuel))
      else if token == .blockMappingStart && block then
        advance
        return .mapping (collectionTag tag .mapping) (← inside (blockEntries fuel))
      else if hasProperties then
        return .scalar (scalarTag tag (tag.isNone) "") ""
      else throw .malformed

/-- The items of a block sequence up to its end. -/
def blockItems (fuel : Nat) : Reader (List Node) := do
  match fuel with
  | 0 => throw .malformed
  | fuel + 1 =>
    if ← accept .blockItem then
      let item ←
        if ← isAt [.blockItem, .blockEnd] then pure Node.empty else node fuel true false
      return item :: (← blockItems fuel)
    else
      expect .blockEnd
      return []

/-- The items of a sequence that is not indented. -/
def indentlessItems (fuel : Nat) : Reader (List Node) := do
  match fuel with
  | 0 => throw .malformed
  | fuel + 1 =>
    if ← accept .blockItem then
      let item ←
        if ← isAt [.blockItem, .key, .value, .blockEnd] then pure Node.empty
        else node fuel true false
      return item :: (← indentlessItems fuel)
    else return []

/-- The entries of a block mapping up to its end. -/
def blockEntries (fuel : Nat) : Reader (List (Node × Node)) := do
  match fuel with
  | 0 => throw .malformed
  | fuel + 1 =>
    if ← accept .key then
      let key ←
        if ← isAt [.key, .value, .blockEnd] then pure Node.empty else node fuel true true
      let value ←
        if ← accept .value then
          if ← isAt [.key, .value, .blockEnd] then pure Node.empty else node fuel true true
        else pure Node.empty
      return (key, value) :: (← blockEntries fuel)
    else
      expect .blockEnd
      return []

/-- The value after a key in a flow collection, if there is one before
`stop`. -/
def flowValue (fuel : Nat) (stop : Token) : Reader Node := do
  match fuel with
  | 0 => throw .malformed
  | fuel + 1 =>
    if ← accept .value then
      if ← isAt [.flowComma, stop] then return Node.empty else node fuel false false
    else return Node.empty

/-- The key in a flow collection, if there is one before its value or `stop`. -/
def flowKey (fuel : Nat) (stop : Token) : Reader Node := do
  match fuel with
  | 0 => throw .malformed
  | fuel + 1 =>
    if ← isAt [.value, .flowComma, stop] then return Node.empty else node fuel false false

/-- The items of a flow sequence up to its end. -/
def flowItems (fuel : Nat) (first : Bool) : Reader (List Node) := do
  match fuel with
  | 0 => throw .malformed
  | fuel + 1 =>
    if ← accept .flowSequenceEnd then return []
    if !first then expect .flowComma
    if ← accept .key then
      let entry ← inside do
        let key ← flowKey fuel .flowSequenceEnd
        return (key, ← flowValue fuel .flowSequenceEnd)
      return .mapping .mapping [entry] :: (← flowItems fuel false)
    else if ← accept .flowSequenceEnd then return []
    else
      let item ← node fuel false false
      return item :: (← flowItems fuel false)

/-- The entries of a flow mapping up to its end. -/
def flowEntries (fuel : Nat) (first : Bool) : Reader (List (Node × Node)) := do
  match fuel with
  | 0 => throw .malformed
  | fuel + 1 =>
    if ← accept .flowMappingEnd then return []
    if !first then expect .flowComma
    if ← accept .key then
      let key ← flowKey fuel .flowMappingEnd
      let value ← flowValue fuel .flowMappingEnd
      return (key, value) :: (← flowEntries fuel false)
    else if ← accept .flowMappingEnd then return []
    else
      let key ← node fuel false false
      return (key, Node.empty) :: (← flowEntries fuel false)

end

/-- The handles that every document knows. -/
def usualHandles : List (String × String) := [("!", "!"), ("!!", Tag.stem)]

/-- The directives before a document and the handles that they define. -/
def directives : Nat → Bool → List (String × String) → Reader (List (String × String))
  | 0, _, _ => throw .malformed
  | fuel + 1, versioned, handles => do
    match ← peek with
    | .versionDirective major =>
      advance
      if versioned || major != 1 then throw .malformed
      directives fuel true handles
    | .tagDirective handle stem =>
      advance
      if (handles.lookup handle).isSome then throw .malformed
      directives fuel versioned ((handle, stem) :: handles)
    | .otherDirective =>
      advance
      directives fuel versioned handles
    | _ => return handles

/-- Move past any number of document ends. -/
def skipEnds : Nat → Reader Unit
  | 0 => throw .malformed
  | fuel + 1 => do
    if ← accept .documentEnd then skipEnds fuel

/-- The one document of a text, if there is one. -/
def document (fuel : Nat) : Reader (Option Node) := do
  match ← peek with
  | .streamEnd => return none
  | token =>
    let isExplicit : Bool := match token with
      | .versionDirective _ | .tagDirective _ _ | .otherDirective | .documentStart => true
      | _ => false
    let root ←
      if isExplicit then do
        let handles ← directives fuel false []
        modify fun r => { r with handles := handles ++ usualHandles }
        expect .documentStart
        let isEmpty : Bool := match ← peek with
          | .versionDirective _ | .tagDirective _ _ | .otherDirective => true
          | .documentStart | .documentEnd | .streamEnd => true
          | _ => false
        if isEmpty then pure Node.empty else node fuel true false
      else do
        modify fun r => { r with handles := usualHandles }
        node fuel true false
    skipEnds fuel
    if (← peek) == .streamEnd then return some root else throw .malformed

end Reader

/-- Whether a character may occur in a document. -/
def isAllowed (c : Char) : Bool :=
  let n := c.toNat
  n == 9 || n == 10 || n == 13 || (32 ≤ n && n ≤ 126) || n == 0x85 || (0xa0 ≤ n && n ≤ 0xd7ff) ||
    (0xe000 ≤ n && n ≤ 0xfffd) || 0x10000 ≤ n

/-- The one document of a text as a tree of nodes, if there is one. -/
def compose (text : List Char) : Except Error (Option Node) := do
  if !text.all isAllowed then throw .malformed
  let (tokens, failure) := tokens text
  let reading : Reading := { tokens, failure := failure.getD .malformed }
  let (root, _) ← (Reader.document (3 * tokens.length + 8)).run reading
  return root

end Montage.Yaml
