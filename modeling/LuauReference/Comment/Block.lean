/-
This file finds the documentation comments of a source file. A comment block is a run of lines that
begin with three hyphens, or a long comment that opens with one equals sign between its brackets
and runs to the matching closer or to the end of the file. Blocks are told by how a line begins and
by nothing else, so a marker inside a string that spans lines begins a block as well.

The functions go down the list of lines. They return how many further lines a block takes, so that
going on after a block is dropping lines from a list.
-/

import LuauReference.Failure

namespace LuauReference

namespace Comment

/-- What begins a documentation line. -/
def lineMarker : Text := "---"

/-- What opens a long documentation comment. -/
def opener : Text := "--[=["

/-- What closes a long documentation comment. -/
def closer : Text := "]=]"

/-- A documentation comment: its first and last line, counted from one, and its content. -/
structure Block where
  firstLine : Nat
  lastLine : Nat
  content : List Text
  deriving DecidableEq, Repr

/-! ### Runs of documentation lines -/

/-- Whether a line is a documentation line. -/
def isMarked (line : Text) : Bool :=
  (Text.trimStart line).startsWith lineMarker

/-- The content of a documentation line: the indentation, the marker and one space after it are
dropped. Any other line is its own content. -/
def stripMarker (line : Text) : Text :=
  match Text.after? lineMarker (Text.trimStart line) with
  | none => line
  | some (' ' :: rest) => rest
  | some rest => rest

/-- The contents of the documentation lines at the head of a list of lines. -/
def lineRun (lines : List Text) : List Text :=
  (lines.takeWhile isMarked).map stripMarker

/-! ### Long comments -/

/-- What was read of a long comment: its content, the number of lines it takes and whether it was
closed. -/
structure LongBody where
  content : List Text
  taken : Nat
  closed : Bool
  deriving DecidableEq, Repr

/-- A line of content, unless it is empty. -/
def unlessEmpty (line : Text) : List Text :=
  if line.isEmpty then [] else [line]

/-- The lines of a long comment after the line that opens it. -/
def longRest : List Text → LongBody
  | [] => ⟨[], 0, false⟩
  | line :: rest =>
    match Text.cut? closer line with
    | some (before, _) => ⟨unlessEmpty before, 1, true⟩
    | none =>
      let body := longRest rest
      ⟨line :: body.content, body.taken + 1, body.closed⟩

/-- The long comment that opens in the first of the given lines. -/
def longBody? (line : Text) (rest : List Text) : Option LongBody :=
  match Text.cut? opener line with
  | none => none
  | some (_, afterOpener) =>
    match Text.cut? closer afterOpener with
    | some (inner, _) => some ⟨unlessEmpty inner, 1, true⟩
    | none =>
      let body := longRest rest
      some ⟨unlessEmpty afterOpener ++ body.content, body.taken + 1, body.closed⟩

/-! ### Blocks -/

/-- The content of the block that begins with a line, and the number of further lines it takes. -/
def blockAt? (line : Text) (rest : List Text) : Option (List Text × Nat) :=
  if isMarked line then
    some (stripMarker line :: lineRun rest, (lineRun rest).length)
  else if (Text.trimStart line).startsWith opener then
    (longBody? line rest).map fun body => (body.content, body.taken - 1)
  else
    none

/-- The blocks of a list of lines, of which the first has the given number. -/
def blocksFrom (number : Nat) (lines : List Text) : List Block :=
  match lines with
  | [] => []
  | line :: rest =>
    match blockAt? line rest with
    | some (content, further) =>
      ⟨number, number + further, content⟩ :: blocksFrom (number + further + 1) (rest.drop further)
    | none => blocksFrom (number + 1) rest
termination_by lines.length
decreasing_by
  all_goals simp only [List.length_drop, List.length_cons]; omega

/-- The documentation blocks of a file, in order. -/
def blocks (lines : List Text) : List Block :=
  blocksFrom 1 lines

/-! ### Looking at one position of a file -/

/-- The line at an index and the lines after it. -/
def linesAt (lines : List Text) (index : Nat) : Except Failure (Text × List Text) :=
  match lines.drop index with
  | [] => .error .outOfRange
  | line :: rest => .ok (line, rest)

/-- The block that begins at an index, if one does. -/
def blockAtIndex (lines : List Text) (index : Nat) : Except Failure (Option Block) := do
  let (line, rest) ← linesAt lines index
  pure ((blockAt? line rest).map fun (content, further) =>
    ⟨index + 1, index + 1 + further, content⟩)

/-- The long comment that opens at an index: its content, the index of its last line and whether it
was closed. -/
def longAtIndex (lines : List Text) (index : Nat) : Except Failure (List Text × Nat × Bool) := do
  let (line, rest) ← linesAt lines index
  match longBody? line rest with
  | some body => pure (body.content, index + body.taken - 1, body.closed)
  | none => .error .badValue

/-- The run of documentation lines at an index: its content and the index of its last line, which is
the one before when the run is empty. -/
def runAtIndex (lines : List Text) (index : Nat) : List Text × Int :=
  let content := lineRun (lines.drop index)
  (content, (index : Int) + content.length - 1)

/-! ### Indentation -/

/-- The indentation shared by all lines that are not blank. -/
def sharedIndent (lines : List Text) : Nat :=
  (((lines.filter (!Text.isBlankText ·)).map fun line => (Text.indent line).length).min?).getD 0

/-- The lines without their shared indentation. -/
def dedent (lines : List Text) : List Text :=
  lines.map (List.drop (sharedIndent lines))

end Comment

end LuauReference
