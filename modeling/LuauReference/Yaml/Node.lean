/-
This file joins the tokens of a YAML text to nodes. An alias stands for the node with its anchor, so
the nodes of a document form a graph: a collection holds the numbers of its nodes, and a collection
can be among its own nodes. An anchor counts from the beginning of its node on.
-/

import LuauReference.Text.Named
import LuauReference.Yaml.Scalar
import LuauReference.Yaml.Token.Stream

namespace LuauReference

namespace Yaml

/-- The kind of value that a node says it has. -/
inductive Tag
  | null
  | bool
  | int
  | float
  | binary
  | timestamp
  | orderedMap
  | pairs
  | set
  | str
  | sequence
  | mapping
  /-- The key under which other mappings are merged into one. -/
  | merge
  /-- The key under which a mapping holds the scalar that it stands for. -/
  | default
  | other (name : Text)
  deriving DecidableEq

/-- The text that all tags of the format begin with. -/
def Tag.family : Text := "tag:yaml.org,2002:"

/-- The tags of the format under their names. -/
def Tag.names : Named Tag :=
  [("null".toList, .null), ("bool".toList, .bool), ("int".toList, .int), ("float".toList, .float),
    ("binary".toList, .binary), ("timestamp".toList, .timestamp), ("omap".toList, .orderedMap),
    ("pairs".toList, .pairs), ("set".toList, .set), ("str".toList, .str), ("seq".toList, .sequence),
    ("map".toList, .mapping), ("merge".toList, .merge), ("value".toList, .default)]

/-- The tag with a full text. -/
def Tag.ofText (s : Text) : Tag :=
  match Text.after? Tag.family s with
  | some name => (Tag.names.get? name).getD (.other s)
  | none => .other s

/-- The tag of a scalar that stands without quotes. -/
def Tag.ofKind : ScalarKind → Tag
  | .null => .null
  | .bool => .bool
  | .int => .int
  | .float => .float
  | .timestamp => .timestamp
  | .merge => .merge
  | .default => .default
  | .directive => .other (Tag.family ++ "yaml".toList)
  | .str => .str

/-- The content of a node; the nodes of a collection are given by their numbers. -/
inductive Content
  | scalar (text : Text)
  | sequence (items : List Nat)
  | mapping (entries : List (Nat × Nat))
  deriving DecidableEq

/-- A node of a document. -/
structure Node where
  tag : Tag
  content : Content

/-- The state between two nodes: the tokens that are left, what the handles of tags stand for, the
numbers of the nodes with anchors, and the nodes so far. -/
structure Composer where
  tokens : List Token
  handles : Named Text
  anchors : Named Nat
  nodes : Array Node

/-- A step of joining tokens to nodes. -/
abbrev Compose := StateT Composer (Except Fault)

namespace Composer

/-- Stops for a breach of the format. -/
def stop {α : Type} (detail : String) : Compose α :=
  fun _ => malformed detail

/-- The next token. -/
def next? : Compose (Option Token) := do
  return (← get).tokens.head?

/-- Whether the next token is one of the given ones. -/
def isNext (tokens : List Token) : Compose Bool := do
  return (← next?).any tokens.contains

/-- Past the next token. -/
def advance : Compose Unit :=
  modify fun s => { s with tokens := s.tokens.tail }

/-- Past the next token if it is the given one; the result says whether it was. -/
def accept (token : Token) : Compose Bool := do
  if ← isNext [token] then
    advance
    pure true
  else
    pure false

/-! ### Single nodes -/

/-- Adds a node, under an anchor if it has one. -/
def addNode (anchor : Option Text) (node : Node) : Compose Nat := do
  let s ← get
  let number := s.nodes.size
  let anchors ← match anchor with
    | some name =>
      if s.anchors.has name then stop "found duplicate anchor"
      else pure (s.anchors.set name number)
    | none => pure s.anchors
  set { s with nodes := s.nodes.push node, anchors := anchors }
  pure number

/-- Gives the content of a collection that was added before. -/
def fill (number : Nat) (content : Content) : Compose Unit :=
  modify fun s => { s with nodes := s.nodes.modify number ({ · with content := content }) }

/-- A node that nothing is written for. -/
def emptyNode : Compose Nat :=
  addNode none ⟨.null, .scalar []⟩

/-- The anchor and the tag before a node, in either order. -/
def properties : Compose (Option Text × Option (Option Text × Text)) := do
  match ← next? with
  | some (.anchor name) =>
    advance
    match ← next? with
    | some (.tag handle suffix) =>
      advance
      pure (some name, some (handle, suffix))
    | _ => pure (some name, none)
  | some (.tag handle suffix) =>
    advance
    match ← next? with
    | some (.anchor name) =>
      advance
      pure (some name, some (handle, suffix))
    | _ => pure (none, some (handle, suffix))
  | _ => pure (none, none)

/-- The full text of a tag. -/
def expandTag (handle : Option Text) (suffix : Text) : Compose Text := do
  match handle with
  | none => pure suffix
  | some handle =>
    match (← get).handles.get? handle with
    | some expansion => pure (expansion ++ suffix)
    | none => stop "found undefined tag handle"

/-- The kind of a scalar whose tag leaves it open. The end of a line after the scalar does not
count. -/
def openKind (text : Text) : ScalarKind :=
  match Text.before? ['\n'] text with
  | some front => if front.isEmpty then .str else kindOf front
  | none => kindOf text

/-- The tag of a scalar, given the full text of the one before it, if any. A tag that is the mark
alone leaves the kind open, as no tag does before a scalar without quotes. -/
def scalarTag (tag : Option Text) (plain : Bool) (text : Text) : Tag :=
  match tag with
  | none => if plain then .ofKind (openKind text) else .str
  | some tag => if tag = ['!'] then .ofKind (openKind text) else .ofText tag

/-- The tag of a collection, given the full text of the one before it and the usual one. -/
def collectionTag (usual : Tag) (tag : Option Text) : Tag :=
  match tag with
  | none => usual
  | some tag => if tag = ['!'] then usual else .ofText tag

/-! ### Collections -/

mutual

/-- The node that comes next. Block collections may begin only outside of brackets, and entries
without a collection of their own only directly below a mapping. The first argument bounds the
number of nodes and entries. -/
def node : Nat → Bool → Bool → Compose Nat
  | 0, _, _ => stop "found too many nodes"
  | fuel + 1, isBlock, mayLackIndent => do
    match ← next? with
    | some (.alias name) =>
      advance
      match (← get).anchors.get? name with
      | some number => pure number
      | none => stop "found undefined alias"
    | _ =>
      let (anchor, written) ← properties
      let tag ← written.mapM fun (handle, suffix) => expandTag handle suffix
      match ← next? with
      | some (.scalar plain text) =>
        advance
        addNode anchor ⟨scalarTag tag plain text, .scalar text⟩
      | some .flowSequenceStart =>
        advance
        let number ← addNode anchor ⟨collectionTag .sequence tag, .sequence []⟩
        let items ← flowItems fuel true
        fill number (.sequence items)
        pure number
      | some .flowMappingStart =>
        advance
        let number ← addNode anchor ⟨collectionTag .mapping tag, .mapping []⟩
        let entries ← flowPairs fuel true
        fill number (.mapping entries)
        pure number
      | following =>
        if mayLackIndent && following == some .blockEntry then
          let number ← addNode anchor ⟨collectionTag .sequence tag, .sequence []⟩
          let items ← bareItems fuel
          fill number (.sequence items)
          pure number
        else if isBlock && following == some .blockSequenceStart then
          advance
          let number ← addNode anchor ⟨collectionTag .sequence tag, .sequence []⟩
          let items ← blockItems fuel
          fill number (.sequence items)
          pure number
        else if isBlock && following == some .blockMappingStart then
          advance
          let number ← addNode anchor ⟨collectionTag .mapping tag, .mapping []⟩
          let entries ← blockPairs fuel
          fill number (.mapping entries)
          pure number
        else if anchor.isSome || tag.isSome then
          addNode anchor ⟨scalarTag tag tag.isNone [], .scalar []⟩
        else
          stop "expected the node content"

/-- A node, or an empty one before any of the given tokens. -/
def nodeUnless : Nat → Bool → Bool → List Token → Compose Nat
  | 0, _, _, _ => stop "found too many nodes"
  | fuel + 1, isBlock, mayLackIndent, ends => do
    if ← isNext ends then emptyNode else node fuel isBlock mayLackIndent

/-- The entries of a block sequence, up to its end. -/
def blockItems : Nat → Compose (List Nat)
  | 0 => stop "found too many nodes"
  | fuel + 1 => do
    if ← accept .blockEntry then
      let item ← nodeUnless fuel true false [.blockEntry, .blockEnd]
      let more ← blockItems fuel
      pure (item :: more)
    else if ← accept .blockEnd then
      pure []
    else
      stop "expected <block end>"

/-- The entries of a sequence that has the column of the mapping above it. -/
def bareItems : Nat → Compose (List Nat)
  | 0 => stop "found too many nodes"
  | fuel + 1 => do
    if ← accept .blockEntry then
      let item ← nodeUnless fuel true false [.blockEntry, .key, .value, .blockEnd]
      let more ← bareItems fuel
      pure (item :: more)
    else
      pure []

/-- The keys and values of a block mapping, up to its end. -/
def blockPairs : Nat → Compose (List (Nat × Nat))
  | 0 => stop "found too many nodes"
  | fuel + 1 => do
    if ← accept .key then
      let key ← nodeUnless fuel true true [.key, .value, .blockEnd]
      let value ←
        if ← accept .value then nodeUnless fuel true true [.key, .value, .blockEnd]
        else emptyNode
      let more ← blockPairs fuel
      pure ((key, value) :: more)
    else if ← accept .blockEnd then
      pure []
    else
      stop "expected <block end>"

/-- The value after a key inside of brackets, which may be missing, as may the key. -/
def flowPair : Nat → Token → Compose (Nat × Nat)
  | 0, _ => stop "found too many nodes"
  | fuel + 1, close => do
    let key ← nodeUnless fuel false false [.value, .flowEntry, close]
    let value ←
      if ← accept .value then nodeUnless fuel false false [.flowEntry, close]
      else emptyNode
    pure (key, value)

/-- The items of a sequence in brackets, up to the closing one. A key among them makes a mapping
with one entry. -/
def flowItems : Nat → Bool → Compose (List Nat)
  | 0, _ => stop "found too many nodes"
  | fuel + 1, isFirst => do
    if ← accept .flowSequenceEnd then
      pure []
    else
      if !isFirst then
        if !(← accept .flowEntry) then stop "expected ',' or ']'"
      if ← accept .flowSequenceEnd then
        pure []
      else
        let item ←
          if ← accept .key then do
            let number ← addNode none ⟨.mapping, .mapping []⟩
            let entry ← flowPair fuel .flowSequenceEnd
            fill number (.mapping [entry])
            pure number
          else
            node fuel false false
        let more ← flowItems fuel false
        pure (item :: more)

/-- The keys and values of a mapping in brackets, up to the closing one. A node without a mark is a
key without a value. -/
def flowPairs : Nat → Bool → Compose (List (Nat × Nat))
  | 0, _ => stop "found too many nodes"
  | fuel + 1, isFirst => do
    if ← accept .flowMappingEnd then
      pure []
    else
      if !isFirst then
        if !(← accept .flowEntry) then stop "expected ',' or '\x7d'"
      if ← accept .flowMappingEnd then
        pure []
      else
        let entry ←
          if ← accept .key then
            flowPair fuel .flowMappingEnd
          else do
            let key ← node fuel false false
            let value ← emptyNode
            pure (key, value)
        let more ← flowPairs fuel false
        pure (entry :: more)

end

/-! ### Documents -/

/-- What the handles of tags stand for unless a document says otherwise. -/
def usualHandles : Named Text :=
  [("!".toList, "!".toList), ("!!".toList, Tag.family)]

/-- Reads the instructions before a document: the version, which must be given once at most, and the
handles of tags. -/
def instructions : Nat → Bool → Named Text → Compose (Named Text)
  | 0, _, handles => pure handles
  | fuel + 1, hasVersion, handles => do
    match ← next? with
    | some (.instruction content) =>
      advance
      match content with
      | .version major =>
        if hasVersion then stop "found duplicate YAML directive"
        if major != 1 then stop "found incompatible YAML document (version 1.* is required)"
        instructions fuel true handles
      | .tagHandle handle expansion =>
        if handles.has handle then stop "duplicate tag handle"
        instructions fuel hasVersion (handles.set handle expansion)
      | .other => instructions fuel hasVersion handles
    | _ => pure handles

/-- Whether the next token begins a document or instructions for one. -/
def isDocumentNext : Compose Bool := do
  match ← next? with
  | some (.instruction _) => pure true
  | some .documentStart => pure true
  | _ => pure false

/-- Past marks that end a document. -/
def skipEnds : Nat → Compose Unit
  | 0 => pure ()
  | fuel + 1 => do
    if ← accept .documentEnd then skipEnds fuel

/-- The root of the only document of a text, if it has one. -/
def document (size : Nat) : Compose (Option Nat) := do
  if (← next?).isNone then
    pure none
  else
    let root ←
      if ← isDocumentNext then do
        let own ← instructions size false []
        let handles := usualHandles.foldl (fun all (name, value) => all.setDefault name value) own
        modify fun s => { s with handles := handles }
        if !(← accept .documentStart) then stop "expected '<document start>'"
        if (← isDocumentNext) || (← isNext [.documentEnd]) || (← next?).isNone then emptyNode
        else node (4 * size + 4) true false
      else
        node (4 * size + 4) true false
    skipEnds size
    if (← next?).isSome then stop "expected a single document in the stream"
    pure (some root)

end Composer

/-- The nodes of the document that a text holds and the number of its root, if it holds one. -/
def compose (s : Text) : Except Fault (Array Node × Option Nat) := do
  let tokens ← tokens s
  let (root, state) ← (Composer.document tokens.length).run ⟨tokens, Composer.usualHandles, [], #[]⟩
  pure (state.nodes, root)

end Yaml

end LuauReference
