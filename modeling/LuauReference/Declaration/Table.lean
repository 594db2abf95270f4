/-
This file reads table types: the line on which one opens, its fields, and the line on which it
closes. Fields are read at depth one only. A field whose type opens a brace takes the lines up to
the closing one into its type, and a documentation block before a field describes it.
-/

import LuauReference.Comment.Block
import LuauReference.Declaration.Basic
import LuauReference.Declaration.Brackets
import LuauReference.Doc.Tag

namespace LuauReference

namespace Declaration

/-! ### The opening line -/

/-- The name of the table type that opens on a line. -/
def tableHead? (line : Text) : Option Text := do
  let afterType ← afterKeyword? "type" (skipKeyword "export" (Text.trimStart line))
  let (name, tail) ← Text.identifier? afterType
  let value ← Text.after? "=" (skipGenerics tail)
  let _ ← Text.after? "\x7b" (Text.trimStart value)
  pure name

/-- By how much a line changes the depth of braces. -/
def braceBalance (line : Text) : Int :=
  Text.tally '\x7b' line - Text.tally '\x7d' line

/-- What stands before the last closing brace. -/
def beforeLastBrace (s : Text) : Text :=
  match Text.cutLast? '\x7d' s with
  | some (before, _) => before
  | none => s.dropLast

/-! ### Fields -/

/-- The name of a field and the text after its colon. -/
def fieldParts? (line : Text) : Option (Text × Text) := do
  let (name, tail) ← Text.identifier? (Text.trimStart line)
  let value ← Text.after? ":" (Text.trimStart tail)
  let type ← Text.restOfLine? (Text.trimStart value)
  pure (name, Text.trim type)

/-- The fields of a table type that opens and closes on one line. -/
def inlineFields (number : Nat) (inner : Text) : List TableField :=
  (splitTopLevel ",;" inner).filterMap fun part =>
    (fieldParts? part).map fun (name, type) => ⟨name, Doc.nonEmpty? type, none, some number⟩

/-- The description of a field from the content of the block before it. -/
def fieldDescription? (content : Option (List Text)) : Option Text :=
  match content with
  | none => none
  | some lines =>
    let body := Text.dropBlankLines (Comment.dedent lines)
    let body := (Text.dropBlankLines body.reverse).reverse
    Doc.nonEmpty? (Text.trimEnd (Text.join "\n" body))

/-- A type that goes on over further lines while braces are open: the whole type, the depth after
it and the number of further lines. -/
def wholeType (type : Text) (depth : Int) : List Text → Text × Int × Nat
  | [] => (type, depth, 0)
  | line :: rest =>
    if depth ≤ 1 then
      (type, depth, 0)
    else
      let code := codeOf line
      let (whole, final, further) :=
        wholeType (type ++ ' ' :: Text.trim code) (depth + braceBalance code) rest
      (whole, final, further + 1)

/-- The type of a field as it is kept: without the brace that closes the table and without the
separator at its end. -/
def trimType (closes : Bool) (type : Text) : Text :=
  let type := if closes then beforeLastBrace type else type
  Text.trim (Text.dropEndWhile (fun c => c == ',' || c == ';') (Text.trim type))

/-- Reads the lines of a table type from the one with the given index on, at the given depth, with
the documentation that waits for a field. Returns the fields and the index of the last line. -/
def tableBody (index : Nat) (depth : Int) (waiting : Option (List Text)) (lines : List Text) :
    List TableField × Nat :=
  match lines with
  | [] => ([], index - 1)
  | line :: rest =>
    match Comment.blockAt? line rest with
    | some (content, further) =>
      tableBody (index + further + 1) depth (some content) (rest.drop further)
    | none =>
      if (Text.trim line).startsWith "--" then
        tableBody (index + 1) depth waiting rest
      else
        let code := codeOf line
        let inner := depth + braceBalance code
        match if depth == 1 then fieldParts? code else none with
        | some (name, type) =>
          let (whole, final, further) := wholeType type inner rest
          let field : TableField :=
            ⟨name, Doc.nonEmpty? (trimType (final ≤ 0) whole), fieldDescription? waiting,
              some (index + 1)⟩
          if final ≤ 0 then
            ([field], index + further)
          else
            let (fields, last) := tableBody (index + further + 1) final none (rest.drop further)
            (field :: fields, last)
        | none =>
          if inner ≤ 0 then ([], index) else tableBody (index + 1) inner waiting rest
termination_by lines.length
decreasing_by
  all_goals simp only [List.length_drop, List.length_cons]; omega

/-- The fields of the table type that opens on a line, and the index of its last line. -/
def table (index : Nat) (line : Text) (rest : List Text) : List TableField × Nat :=
  match Text.cut? "\x7b" (codeOf line) with
  | none => ([], index)
  | some (_, head) =>
    let depth := 1 + braceBalance head
    if depth ≤ 0 then
      (inlineFields (index + 1) (beforeLastBrace head), index)
    else
      tableBody (index + 1) depth none rest

/-! ### Ranges -/

/-- The first and last line of every table type in a list of lines, of which the first has the given
index. A table that opens inside another is not looked at. -/
def tableRangesFrom (index : Nat) (lines : List Text) : List (Nat × Nat) :=
  match lines with
  | [] => []
  | line :: rest =>
    if (tableHead? line).isSome then
      let last := (table index line rest).2
      (index + 1, last + 1) :: tableRangesFrom (last + 1) (rest.drop (last - index))
    else
      tableRangesFrom (index + 1) rest
termination_by lines.length
decreasing_by
  all_goals simp only [List.length_drop, List.length_cons]; omega

/-- The first and last line of every table type of a file, counted from one. -/
def tableRanges (lines : List Text) : List (Nat × Nat) :=
  tableRangesFrom 0 lines

/-- The table type that opens at an index of a file. -/
def tableAtIndex (lines : List Text) (index : Nat) : Except Failure (List TableField × Nat) := do
  let (line, rest) ← Comment.linesAt lines index
  pure (table index line rest)

end Declaration

end LuauReference
