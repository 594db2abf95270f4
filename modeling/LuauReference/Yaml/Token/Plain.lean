/-
This file reads plain scalars, those without quotes. One ends at a colon that is followed by a
blank, at a comment, at a line that is indented too little or, inside of brackets, at a mark of the
brackets. It may go over several lines, which are then folded into one.
-/

import LuauReference.Yaml.Cursor

namespace LuauReference

namespace Yaml

/-- The characters that brackets take away from plain scalars. -/
def flowMarks : List Char :=
  [',', '?', '[', ']', '\x7b', '\x7d']

/-- Whether a colon before the next character ends a plain scalar. -/
def colonEnds (inFlow : Bool) (next : Option Char) : Bool :=
  endsToken next || (inFlow && next.any fun c => c != '?' && flowMarks.contains c)

/-- The part of a plain scalar up to the next blank. -/
def plainRun (inFlow : Bool) : Text → Text
  | [] => []
  | c :: rest =>
    if endsToken (some c) || (c == ':' && colonEnds inFlow rest.head?)
        || (inFlow && flowMarks.contains c) then
      []
    else
      c :: plainRun inFlow rest

/-- What stands between two parts of a plain scalar: the text it stands for, whether a line ended in
it, and the place after it. The text is empty when the scalar cannot go on. -/
structure PlainGap where
  text : Text
  crossed : Bool
  after : Cursor

/-- The ends of empty lines, or nothing when a mark between documents is met on the way. The first
argument bounds the number of characters. -/
def emptyLines : Nat → Cursor → Option Text × Cursor
  | 0, cursor => (some [], cursor)
  | fuel + 1, cursor =>
    match cursor.lineBreak? with
    | some (lineEnd, after) =>
      if after.atDocumentMark then
        (none, after)
      else
        let (more, last) := emptyLines fuel after
        (more.map (lineEnd :: ·), last)
    | none =>
      if cursor.peek? == some ' ' then emptyLines fuel cursor.step else (some [], cursor)

/-- What stands between the part of a plain scalar that was read and the next one. -/
def plainGap (cursor : Cursor) : PlainGap :=
  let (spaces, cursor) := cursor.run (· == ' ')
  match cursor.lineBreak? with
  | none => ⟨spaces, false, cursor⟩
  | some (lineEnd, cursor) =>
    if cursor.atDocumentMark then
      ⟨[], true, cursor⟩
    else
      match emptyLines (cursor.rest.length + 1) cursor with
      | (none, after) => ⟨[], true, after⟩
      | (some more, after) => ⟨folded lineEnd more, true, after⟩

/-- A scalar that was read, whether a line ended behind it, and the place after it. -/
structure PlainScalar where
  text : Text
  crossed : Bool
  after : Cursor

/-- The rest of a plain scalar, given the gap before the cursor and the least column of its lines.
The first argument bounds the number of parts. -/
def plainFrom (inFlow : Bool) (column : Int) : Nat → PlainGap → PlainScalar
  | 0, gap => ⟨[], gap.crossed, gap.after⟩
  | fuel + 1, gap =>
    let part := plainRun inFlow gap.after.rest
    if gap.after.peek? == some '#' || part.isEmpty then
      ⟨[], gap.crossed, gap.after⟩
    else
      let next := plainGap (gap.after.steps part.length)
      let last := next.text.isEmpty || next.after.peek? == some '#'
        || (!inFlow && decide ((next.after.column : Int) < column))
      if last then
        ⟨gap.text ++ part, next.crossed, next.after⟩
      else
        let more := plainFrom inFlow column fuel next
        ⟨gap.text ++ part ++ more.text, more.crossed, more.after⟩

/-- The plain scalar at a place. -/
def plainScalar (inFlow : Bool) (column : Int) (cursor : Cursor) : PlainScalar :=
  plainFrom inFlow column (cursor.rest.length + 1) ⟨[], false, cursor⟩

end Yaml

end LuauReference
