/-
This file reads the parts of a node that stand before its content, anchors and tags, and the lines
of instructions that may stand before a document.
-/

import LuauReference.Text.Numeral
import LuauReference.Text.Utf8
import LuauReference.Yaml.Cursor
import LuauReference.Yaml.Token.Basic

namespace LuauReference

namespace Yaml

/-! ### Anchors -/

/-- The characters that may follow the name of an anchor directly. -/
def afterAnchor : List Char :=
  ['?', ':', ',', ']', '\x7d', '%', '@', '\x60']

/-- The name of an anchor or alias at a place, where its mark stands. -/
def anchorName (cursor : Cursor) : Except Fault (Text × Cursor) :=
  let (name, after) := cursor.step.run isNameChar
  if name.isEmpty then
    malformed "expected alphabetic or numeric character"
  else if endsToken after.peek? || after.peek?.any afterAnchor.contains then
    .ok (name, after)
  else
    malformed "expected alphabetic or numeric character"

/-! ### Tags -/

/-- The handle of a tag at a place: an exclamation mark, alone before a space or with letters and a
second mark after it. -/
def tagHandle (cursor : Cursor) : Except Fault (Text × Cursor) :=
  if cursor.peek? != some '!' then
    malformed "expected '!'"
  else
    let after := cursor.step
    if after.peek? == some ' ' then
      .ok (['!'], after)
    else
      let (name, after) := after.run isNameChar
      if after.peek? == some '!' then
        .ok ('!' :: name ++ ['!'], after.step)
      else
        malformed "expected '!'"

/-- A character that stands for itself in the text of a tag. -/
def isTagChar (c : Char) : Bool :=
  c.isAlphanum || List.elem c "-;/?:@&=+$,_.!~*'()[]".toList

/-- The bytes of escapes at a place: each is a percent sign and two hexadecimal digits. The first
argument bounds their number. -/
def escapedBytes : Nat → Cursor → Except Fault (List UInt8 × Cursor)
  | 0, cursor => .ok ([], cursor)
  | fuel + 1, cursor =>
    match cursor.rest with
    | '%' :: high :: low :: _ =>
      match Text.naturalIn? 16 [high, low] with
      | some byte => do
        let (more, last) ← escapedBytes fuel (cursor.steps 3)
        pure (UInt8.ofNat byte :: more, last)
      | none => malformed "expected an escape sequence of 2 hexadecimal numbers"
    | '%' :: _ => malformed "expected an escape sequence of 2 hexadecimal numbers"
    | _ => .ok ([], cursor)

/-- The text of a tag at a place. The first argument bounds the number of its parts. -/
def tagTextFrom : Nat → Cursor → Except Fault (Text × Cursor)
  | 0, cursor => .ok ([], cursor)
  | fuel + 1, cursor =>
    match cursor.peek? with
    | some '%' => do
      let (bytes, after) ← escapedBytes (cursor.rest.length + 1) cursor
      match Text.ofUtf8? bytes with
      | some text => do
        let (more, last) ← tagTextFrom fuel after
        pure (text ++ more, last)
      | none => malformed "the escapes of a tag are no text"
    | some c =>
      if isTagChar c then do
        let (more, last) ← tagTextFrom fuel cursor.step
        pure (c :: more, last)
      else
        .ok ([], cursor)
    | none => .ok ([], cursor)

/-- The text of a tag at a place, which must not be missing. -/
def tagText (cursor : Cursor) : Except Fault (Text × Cursor) :=
  match cursor.peek? with
  | some c =>
    if isTagChar c || c == '%' then tagTextFrom (cursor.rest.length + 1) cursor
    else malformed "expected the text of a tag"
  | none => malformed "expected the text of a tag"

/-- The tag at a place, where its mark stands: given in full between angle brackets, the mark alone,
or a text that is joined to a handle. -/
def tagToken (cursor : Cursor) : Except Fault (Token × Cursor) := do
  let (token, after) ←
    if cursor.second? == some '<' then do
      let (text, after) ← tagText (cursor.steps 2)
      if after.peek? == some '>' then pure (Token.tag none text, after.step)
      else malformed "expected '>'"
    else if endsToken cursor.second? then
      pure (Token.tag none ['!'], cursor.step)
    else do
      let word := cursor.rest.tail.takeWhile fun c => !endsWord (some c)
      let (handle, after) ←
        if word.contains '!' then tagHandle cursor else pure (['!'], cursor.step)
      let (text, after) ← tagText after
      pure (Token.tag (some handle) text, after)
  if endsWord after.peek? then pure (token, after)
  else malformed "expected ' ' after a tag"

/-! ### Instructions -/

/-- A number at a place. -/
def versionNumber (cursor : Cursor) : Except Fault (Nat × Cursor) :=
  let (digits, after) := cursor.run Char.isDigit
  match Text.naturalIn? 10 digits with
  | some n => .ok (n, after)
  | none => malformed "expected a digit"

/-- The two numbers of a version, of which the first is kept. -/
def versionOf (cursor : Cursor) : Except Fault (Instruction × Cursor) := do
  let (major, after) ← versionNumber (cursor.skip (· == ' '))
  if after.peek? != some '.' then malformed "expected a digit or '.'"
  let (_, after) ← versionNumber after.step
  if endsWord after.peek? then pure (.version major, after)
  else malformed "expected a digit or ' '"

/-- A handle and what it stands for. -/
def tagHandleOf (cursor : Cursor) : Except Fault (Instruction × Cursor) := do
  let (handle, after) ← tagHandle (cursor.skip (· == ' '))
  if after.peek? != some ' ' then malformed "expected ' '"
  let (expansion, after) ← tagText (after.skip (· == ' '))
  if endsWord after.peek? then pure (.tagHandle handle expansion, after)
  else malformed "expected ' '"

/-- The line of instructions at a place, where its mark stands. -/
def instruction (cursor : Cursor) : Except Fault (Token × Cursor) := do
  let (name, after) := cursor.step.run isNameChar
  if name.isEmpty || !endsWord after.peek? then malformed "expected the name of a directive"
  let (content, after) ←
    if name = "YAML".toList then versionOf after
    else if name = "TAG".toList then tagHandleOf after
    else pure (.other, after.skip fun c => !isBreak c)
  let after := after.skipComment
  if endsLine after.peek? then pure (.instruction content, after.skipBreak)
  else malformed "expected a comment or a line break"

end Yaml

end LuauReference
