/-
This file finds the declaration that a documentation block is attached to: the first line of code
after the block, if it has one of the known shapes. Lines that match none leave the block without a
declaration; nothing here can fail on a malformed source.
-/

import LuauReference.Declaration.Signature
import LuauReference.Declaration.Table

namespace LuauReference

namespace Declaration

/-! ### Shapes -/

/-- The owner and the name of a field that is assigned. -/
def assignedField? (trimmed : Text) : Option (Text × Text) := do
  let (path, tail) ← Text.run? Text.isWordStart isDottedChar trimmed
  let _ ← Text.after? "=" (Text.trimStart tail)
  let member := Doc.splitOwner path
  let owner ← member.within.bind Doc.nonEmpty?
  if Text.startsWith trimmed "local " then none else pure (owner, member.name)

/-- The name of a local variable that a table is assigned to, with or without a type. -/
def localTable? (trimmed : Text) : Option Text := do
  let afterLocal ← afterKeyword? "local" trimmed
  let (name, tail) ← Text.identifier? afterLocal
  let value ← match Text.trimStart tail with
    | '=' :: value => some value
    | ':' :: typed =>
      match Text.cut? "=" typed with
      | some (type, value) => if type.isEmpty then none else some value
      | none => none
    | _ => none
  let _ ← Text.after? "\x7b" (Text.trimStart value)
  pure name

/-- The shape of the declaration on a line, with the index of the line and the lines after it. -/
def shapeAt? (index : Nat) (line : Text) (rest : List Text) : Option Shape :=
  let code := Text.trimEnd (codeOf line)
  match Declaration.signature code with
  | some signature => some (.function signature)
  | none =>
    match tableHead? code with
    | some name =>
      let (fields, last) := table index line rest
      some (.type name fields (last + 1))
    | none =>
      let trimmed := Text.trim code
      match assignedField? trimmed with
      | some (owner, name) => some (.property name owner)
      | none => (localTable? trimmed).map .class_

/-- The declaration on a line. -/
def declarationAt? (index : Nat) (line : Text) (rest : List Text) : Option Declaration :=
  (shapeAt? index line rest).map fun shape => ⟨shape, index + 1, line⟩

/-! ### The line of code after a block -/

/-- Whether a line is blank or a comment. -/
def isSkipped (line : Text) : Bool :=
  let trimmed := Text.trim line
  trimmed.isEmpty || Text.startsWith trimmed "--"

/-- The index of the first line of code, that line and the lines after it. Documentation blocks are
passed over as a whole. -/
def nextCode? (index : Nat) (lines : List Text) : Option (Nat × Text × List Text) :=
  match lines with
  | [] => none
  | line :: rest =>
    match Comment.blockAt? line rest with
    | some (_, further) => nextCode? (index + further + 1) (rest.drop further)
    | none => if isSkipped line then nextCode? (index + 1) rest else some (index, line, rest)
termination_by lines.length
decreasing_by
  all_goals simp only [List.length_drop, List.length_cons]; omega

/-- The declaration that a block of a file is attached to. -/
def afterBlock? (lines : List Text) (block : Comment.Block) : Option Declaration := do
  let (index, line, rest) ← nextCode? block.lastLine (lines.drop block.lastLine)
  declarationAt? index line rest

/-- The declaration at an index of a file. -/
def atIndex (lines : List Text) (index : Nat) : Except Failure (Option Declaration) := do
  let (line, rest) ← Comment.linesAt lines index
  pure (declarationAt? index line rest)

end Declaration

end LuauReference
