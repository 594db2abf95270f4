/-
This file gives the nodes of a YAML document their values. The values of collections come after
those of the scalars beside them: a collection is met as an empty one first and filled when all that
was met before it is filled, so that it can be among its own items and the first fault in this order
counts. A mapping can take over the entries of others; its own entries win over these.
-/

import LuauReference.Yaml.Node
import LuauReference.Yaml.Value

namespace LuauReference

namespace Yaml

/-- What a collection holds. -/
inductive Collection
  | items (items : List Value)
  | entries (entries : List (Value × Value))
  | members (members : List Value)

/-- A value and the collections that it leads to. -/
structure Document where
  root : Value
  collections : List (Nat × Collection)

/-- The state between two nodes: the nodes, the values so far, the collections that are still to be
filled and those that are filled. -/
structure Builder where
  nodes : Array Node
  values : List (Nat × Value)
  waiting : List Nat
  collections : List (Nat × Collection)

/-- A step of giving nodes their values. -/
abbrev Build := StateT Builder (Except Fault)

namespace Builder

/-- Stops for a breach of the format. -/
def stop {α : Type} (detail : String) : Build α :=
  fun _ => malformed detail

/-- A value that may not exist. -/
def orStop {α : Type} : Except Failure α → Build α
  | .ok value => pure value
  | .error failure => fun _ => .error (.value failure)

/-- The node with a number. -/
def nodeAt (number : Nat) : Build Node := do
  match (← get).nodes[number]? with
  | some node => pure node
  | none => stop "found no node"

/-! ### Merging -/

/-- The entries of a mapping; other nodes have none. -/
def entriesOf (number : Nat) : Build (List (Nat × Nat)) := do
  match (← nodeAt number).content with
  | .mapping entries => pure entries
  | _ => pure []

/-- Gives a mapping other entries. -/
def setEntries (number : Nat) (entries : List (Nat × Nat)) : Build Unit :=
  modify fun s =>
    { s with nodes := s.nodes.modify number ({ · with content := .mapping entries }) }

/-- Makes a key that stands for a scalar of its mapping a plain text. -/
def settleKey (number : Nat) : Build Unit := do
  if (← nodeAt number).tag == .default then
    modify fun s => { s with nodes := s.nodes.modify number ({ · with tag := .str }) }

/-- Replaces the entries under which a mapping names others by the entries of these, before its own
ones. The first argument bounds how deep this goes; a mapping is without such entries while those
that it names are looked at, so each is passed once. -/
def flatten : Nat → Nat → Build Unit
  | 0, _ => stop "found too many mappings to merge"
  | fuel + 1, number => do
    let entries ← entriesOf number
    let marked ← entries.mapM fun (key, value) => do
      return ((← nodeAt key).tag == .merge, key, value)
    let named := marked.filter (·.1)
    let own := (marked.filter fun entry => !entry.1).map (·.2)
    setEntries number own
    own.forM fun (key, _) => settleKey key
    let merged ← named.mapM fun (_, _, value) => do
      match (← nodeAt value).content with
      | .mapping _ =>
        flatten fuel value
        entriesOf value
      | .sequence items =>
        let parts ← items.mapM fun item => do
          match (← nodeAt item).content with
          | .mapping _ =>
            flatten fuel item
            entriesOf item
          | _ => stop "expected a mapping for merging"
        pure parts.reverse.flatten
      | .scalar _ => stop "expected a mapping or list of mappings for merging"
    setEntries number (merged.flatten ++ (← entriesOf number))

/-! ### Values -/

/-- The text of a scalar. A mapping can stand for the scalar under its default key. The first
argument bounds how deep this goes. -/
def scalarText : Nat → Nat → Build Text
  | 0, _ => stop "expected a scalar node"
  | fuel + 1, number => do
    match (← nodeAt number).content with
    | .scalar text => pure text
    | .sequence _ => stop "expected a scalar node"
    | .mapping entries =>
      let keys ← entries.mapM fun (key, value) => do
        return ((← nodeAt key).tag == .default, value)
      match keys.find? (·.1) with
      | some (_, value) => scalarText fuel value
      | none => stop "expected a scalar node"

/-- Puts a collection among those that are to be filled. -/
def later (number : Nat) (value : Value) : Build Value := do
  modify fun s => { s with waiting := s.waiting ++ [number] }
  pure value

/-- The value of a node that was not met before. -/
def newValue (number : Nat) : Build Value := do
  let node ← nodeAt number
  let size := (← get).nodes.size + 1
  match node.tag with
  | .null => do
    let _ ← scalarText size number
    pure .null
  | .bool => do orStop (Value.ofBoolWord (← scalarText size number))
  | .int => do orStop (Value.ofIntText (← scalarText size number))
  | .float => do orStop (Value.ofFloatText (← scalarText size number))
  | .binary => do
    let text ← scalarText size number
    (Value.ofBinaryText text : Except Fault Value)
  | .timestamp => do
    let text ← scalarText size number
    match node.content with
    | .scalar _ => orStop (Value.ofTimestampText text)
    | _ => orStop (.error .wrongKind)
  | .str => do return .str (← scalarText size number)
  | .orderedMap => later number (.list number)
  | .pairs => later number (.list number)
  | .sequence => later number (.list number)
  | .set => later number (.set number)
  | .mapping => later number (.map number)
  | .merge => stop "could not determine a constructor for the tag"
  | .default => stop "could not determine a constructor for the tag"
  | .other _ => stop "could not determine a constructor for the tag"

/-- The value of a node. -/
def valueOf (number : Nat) : Build Value := do
  match (← get).values.lookup number with
  | some value => pure value
  | none =>
    let value ← newValue number
    modify fun s => { s with values := (number, value) :: s.values }
    pure value

/-- Puts a value under a key: in the place of the same key if there is one, which stays as it was
first written, and else at the end. -/
def setEntry (key value : Value) : List (Value × Value) → List (Value × Value)
  | [] => [(key, value)]
  | (other, old) :: rest =>
    if other.sameKey key then (other, value) :: rest else (other, old) :: setEntry key value rest

/-- The entries of a mapping with their values. -/
def mappingOf (number : Nat) : Build (List (Value × Value)) := do
  match (← nodeAt number).content with
  | .mapping _ =>
    flatten ((← get).nodes.size + 1) number
    let entries ← entriesOf number
    entries.foldlM (fun known (keyNode, valueNode) => do
      let key ← valueOf keyNode
      if !key.isKey then stop "found unhashable key"
      let value ← valueOf valueNode
      pure (setEntry key value known)) []
  | _ => stop "expected a mapping node"

/-- The items of a sequence with their values. -/
def sequenceOf (number : Nat) : Build (List Value) := do
  match (← nodeAt number).content with
  | .sequence items => items.mapM valueOf
  | _ => stop "expected a sequence node"

/-- The items of a sequence of mappings with one entry each, as pairs. -/
def pairsOf (number : Nat) : Build (List Value) := do
  match (← nodeAt number).content with
  | .sequence items =>
    items.mapM fun item => do
      match (← nodeAt item).content with
      | .mapping [(keyNode, valueNode)] =>
        let key ← valueOf keyNode
        let value ← valueOf valueNode
        pure (.pair key value)
      | _ => stop "expected a mapping of length 1"
  | _ => stop "expected a sequence"

/-- What a collection holds. -/
def collectionOf (number : Nat) : Build Collection := do
  match (← nodeAt number).tag with
  | .sequence => return .items (← sequenceOf number)
  | .set => return .members ((← mappingOf number).map (·.1))
  | .mapping => return .entries (← mappingOf number)
  | _ => return .items (← pairsOf number)

/-- Fills the collections that are met, in this order. The first argument bounds their number. -/
def fillAll : Nat → Build Unit
  | 0 => pure ()
  | fuel + 1 => do
    match (← get).waiting with
    | [] => pure ()
    | number :: rest =>
      modify fun s => { s with waiting := rest }
      let collection ← collectionOf number
      modify fun s => { s with collections := (number, collection) :: s.collections }
      fillAll fuel

end Builder

namespace Document

/-- The document that a text holds; null when it holds none. -/
def read (s : Text) : Except Fault Document := do
  let (nodes, root) ← compose s
  match root with
  | none => pure ⟨.null, []⟩
  | some number =>
    let build : Build Value := do
      let root ← Builder.valueOf number
      Builder.fillAll (nodes.size + 1)
      pure root
    let (root, state) ← build.run ⟨nodes, [], [], []⟩
    pure ⟨root, state.collections⟩

/-- The entries of a mapping. -/
def entries? (document : Document) : Value → Option (List (Value × Value))
  | .map number =>
    match document.collections.lookup number with
    | some (.entries entries) => some entries
    | _ => some []
  | _ => none

/-- The items of a list; bytes are gone through as numbers. -/
def items? (document : Document) : Value → Option (List Value)
  | .list number =>
    match document.collections.lookup number with
    | some (.items items) => some items
    | _ => some []
  | .bytes bytes => some (bytes.map fun byte => .int byte.toNat)
  | _ => none

/-- The members of a set. -/
def members? (document : Document) : Value → Option (List Value)
  | .set number =>
    match document.collections.lookup number with
    | some (.members members) => some members
    | _ => some []
  | _ => none

/-- The value under a text key of a list of entries; null when there is none. -/
def field (entries : List (Value × Value)) (name : Text) : Value :=
  ((entries.find? fun (key, _) => key.sameKey (.str name)).map (·.2)).getD .null

/-- Whether a value counts as set: not null, not false, not zero and not empty. -/
def isTruthy (document : Document) (value : Value) : Bool :=
  match value with
  | .null => false
  | .bool value => value
  | .int value => value != 0
  | .float value => !value.isZero
  | .str value => !value.isEmpty
  | value =>
    match document.entries? value, document.items? value, document.members? value with
    | some entries, _, _ => !entries.isEmpty
    | _, some items, _ => !items.isEmpty
    | _, _, some members => !members.isEmpty
    | none, none, none => true

end Document

end Yaml

end LuauReference
