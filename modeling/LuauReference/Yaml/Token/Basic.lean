/-
This file holds the tokens of YAML: marks between documents, the beginnings and ends of collections,
the marks of entries, keys and values, and the parts of a node, which are its anchor, its tag and
its scalar. Beginnings and ends of block collections are tokens although no character stands for
them; they come from changes of the indentation.
-/

import LuauReference.Text.Basic

namespace LuauReference

namespace Yaml

/-- A line with instructions for the reader of a document. -/
inductive Instruction
  /-- The version of the format, of which only the first number counts. -/
  | version (major : Nat)
  /-- What a short handle of tags stands for. -/
  | tagHandle (handle expansion : Text)
  | other
  deriving DecidableEq

/-- A token of YAML. -/
inductive Token
  | instruction (content : Instruction)
  | documentStart
  | documentEnd
  | blockSequenceStart
  | blockMappingStart
  | blockEnd
  | flowSequenceStart
  | flowSequenceEnd
  | flowMappingStart
  | flowMappingEnd
  | blockEntry
  | flowEntry
  | key
  | value
  | alias (name : Text)
  | anchor (name : Text)
  /-- A tag with the handle that its text is joined to, if any. -/
  | tag (handle : Option Text) (suffix : Text)
  /-- The text of a scalar, and whether it stood there without quotes and other marks. -/
  | scalar (plain : Bool) (text : Text)
  deriving DecidableEq

end Yaml

end LuauReference
