/-
This file reads block scalars, which begin with a bar or an angle bracket and whose lines are
indented below. After a bar the lines are kept as they are; after an angle bracket they are folded.
A header can give the indentation and say what becomes of the ends of the last lines.
-/

import LuauReference.Yaml.Cursor

namespace LuauReference

namespace Yaml

/-- What becomes of the ends of lines at the end of a block scalar. -/
inductive Chomping
  /-- The last line keeps its end and empty lines after it are dropped. -/
  | clip
  /-- All ends are dropped. -/
  | strip
  /-- All ends are kept. -/
  | keep
  deriving DecidableEq

/-! ### The header -/

/-- The sign that says what becomes of the last ends of lines. -/
def chomping? : Option Char → Option Chomping
  | some '+' => some .keep
  | some '-' => some .strip
  | _ => none

/-- The digit that gives the indentation; it must not be zero. -/
def indentation? (next : Option Char) : Except Fault (Option Nat) :=
  match next with
  | some c =>
    if c == '0' then malformed "expected indentation indicator in the range 1-9, but found 0"
    else if c.isDigit then .ok (some (c.toNat - '0'.toNat))
    else .ok none
  | none => .ok none

/-- The two parts of the header, which may come in either order, and the place after them. -/
def blockHeader (cursor : Cursor) : Except Fault (Chomping × Option Nat × Cursor) := do
  let (chomping, increment, after) ← match chomping? cursor.peek? with
    | some chomping => do
      let increment ← indentation? cursor.second?
      pure (chomping, increment, cursor.steps (if increment.isSome then 2 else 1))
    | none => do
      match ← indentation? cursor.peek? with
      | some increment =>
        let cursor := cursor.step
        match chomping? cursor.peek? with
        | some chomping => pure (chomping, some increment, cursor.step)
        | none => pure (.clip, some increment, cursor)
      | none => pure (.clip, none, cursor)
  if endsWord after.peek? then
    let after := after.skipComment
    if endsLine after.peek? then
      pure (chomping, increment, after.skipBreak)
    else
      malformed "expected a comment or a line break"
  else
    malformed "expected chomping or indentation indicators"

/-! ### Lines -/

/-- The empty lines before the first line of a scalar, the greatest column that their spaces and the
spaces of the first line reach, and the place after them. The first argument bounds the number of
characters. -/
def leadingLines : Nat → Nat → Cursor → Text × Nat × Cursor
  | 0, column, cursor => ([], column, cursor)
  | fuel + 1, column, cursor =>
    match cursor.lineBreak? with
    | some (lineEnd, after) =>
      let (more, column, last) := leadingLines fuel column after
      (lineEnd :: more, column, last)
    | none =>
      if cursor.peek? == some ' ' then
        let after := cursor.step
        leadingLines fuel (max column after.column) after
      else
        ([], column, cursor)

/-- Past spaces up to a column. -/
def indentTo (column : Nat) (cursor : Cursor) : Cursor :=
  let spaces := cursor.rest.takeWhile (· == ' ')
  cursor.steps (min spaces.length (column - cursor.column))

/-- The empty lines between two lines of a scalar and the place after them, which is at the column
of the scalar when it goes on. The first argument bounds the number of lines. -/
def blockBreaks (column : Nat) : Nat → Cursor → Text × Cursor
  | 0, cursor => ([], cursor)
  | fuel + 1, cursor =>
    let cursor := indentTo column cursor
    match cursor.lineBreak? with
    | some (lineEnd, after) =>
      let (more, last) := blockBreaks column fuel after
      (lineEnd :: more, last)
    | none => ([], cursor)

/-- Whether a line begins with a blank; such lines are not folded. -/
def isMoreIndented (cursor : Cursor) : Bool :=
  cursor.peek? == some ' ' || cursor.peek? == some '\t'

/-- The lines of a scalar from a line on, given the empty lines before it: their text, the end of
the last one, the empty lines after it and the place after these. The first argument bounds the
number of lines. -/
def blockLines (fold : Bool) (column : Nat) :
    Nat → Text → Cursor → Text × Text × Text × Cursor
  | 0, breaks, cursor => ([], [], breaks, cursor)
  | fuel + 1, breaks, cursor =>
    let more := isMoreIndented cursor
    let (line, after) := cursor.run fun c => !isBreak c
    let (lineEnd, after) := match after.lineBreak? with
      | some (c, next) => ([c], next)
      | none => ([], after)
    let (empty, after) := blockBreaks column (after.rest.length + 1) after
    if after.column == column && !after.rest.isEmpty then
      let between :=
        if fold && lineEnd == ['\n'] && !more && !isMoreIndented after then
          if empty.isEmpty then [' '] else []
        else
          lineEnd
      let (text, last, tail, place) := blockLines fold column fuel empty after
      (breaks ++ line ++ between ++ text, last, tail, place)
    else
      (breaks ++ line, lineEnd, empty, after)

/-- The block scalar at a place, where its mark stands, inside of a collection that is indented by
the given number of columns. -/
def blockScalar (fold : Bool) (indent : Int) (cursor : Cursor) : Except Fault (Text × Cursor) := do
  let (chomping, increment, cursor) ← blockHeader cursor.step
  let least := max 1 (indent + 1).toNat
  let size := cursor.rest.length + 1
  let (column, breaks, cursor) := match increment with
    | some increment =>
      let column := least + increment - 1
      let (breaks, after) := blockBreaks column size cursor
      (column, breaks, after)
    | none =>
      let (breaks, reached, after) := leadingLines size 0 cursor
      (max least reached, breaks, after)
  let (text, last, tail, after) :=
    if cursor.column == column && !cursor.rest.isEmpty then
      blockLines fold column size breaks cursor
    else
      ([], [], breaks, cursor)
  match chomping with
  | .clip => pure (text ++ last, after)
  | .strip => pure (text, after)
  | .keep => pure (text ++ last ++ tail, after)

end Yaml

end LuauReference
