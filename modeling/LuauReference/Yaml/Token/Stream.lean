/-
This file cuts a whole YAML text into tokens. Whether a scalar is a key is known only when the colon
after it is met, so every place where a key may begin is remembered with the number of its token,
and the token that says "a key follows" is put in front of it later. Inside of brackets only the
brackets give structure; outside of them columns do, and a change of the column begins and ends
collections.
-/

import LuauReference.Yaml.Token.Block
import LuauReference.Yaml.Token.Plain
import LuauReference.Yaml.Token.Quoted
import LuauReference.Yaml.Token.Tag

namespace LuauReference

namespace Yaml

/-- A place where a key may have begun: the number of tokens before it, whether it must be a key
since nothing else can stand in its column, and its position. -/
structure PendingKey where
  number : Nat
  required : Bool
  index : Nat
  line : Nat
  column : Nat

/-- A key lies on one line and is not longer than this. -/
def longestKey : Nat := 1024

/-- The state between two tokens: the place, the tokens so far with the newest first, the pending
key of each level of brackets, the columns of the open block collections, the level of brackets and
whether a key may begin here. -/
structure Scanner where
  cursor : Cursor
  newest : List Token
  pending : List (Nat × PendingKey)
  indent : Int
  outer : List Int
  level : Nat
  keyAllowed : Bool

/-- A step of cutting a text into tokens. -/
abbrev Scan := StateT Scanner (Except Fault)

namespace Scanner

/-- The state at the beginning of a text. -/
def start (s : Text) : Scanner :=
  ⟨Cursor.start s, [], [], -1, [], 0, true⟩

/-- Stops for a breach of the format. -/
def stop {α : Type} (detail : String) : Scan α :=
  fun _ => malformed detail

/-- Adds a token. -/
def emit (token : Token) : Scan Unit :=
  modify fun s => { s with newest := token :: s.newest }

/-- Goes on at another place. -/
def moveTo (cursor : Cursor) : Scan Unit :=
  modify fun s => { s with cursor := cursor }

/-- Says whether a key may begin at the next token. -/
def allowKey (allowed : Bool) : Scan Unit :=
  modify fun s => { s with keyAllowed := allowed }

/-- Adds a token that takes up the given number of characters. -/
def emitMark (token : Token) (width : Nat) : Scan Unit := do
  let s ← get
  moveTo (s.cursor.steps width)
  emit token

/-- Adds the token that a reader finds here and goes on after it. -/
def emitRead (read : Cursor → Except Fault (Token × Cursor)) : Scan Unit := do
  let s ← get
  let (token, after) ← (read s.cursor : Except Fault _)
  moveTo after
  emit token

/-! ### Pending keys -/

/-- Whether a pending key can no longer be one here. -/
def isStale (cursor : Cursor) (key : PendingKey) : Bool :=
  key.line != cursor.line || longestKey < cursor.index - key.index

/-- Drops the pending keys that can no longer be keys; none of them may be required. -/
def dropStale : Scan Unit := do
  let s ← get
  if s.pending.any fun (_, key) => key.required && isStale s.cursor key then
    stop "could not find expected ':'"
  set { s with pending := s.pending.filter fun (_, key) => !isStale s.cursor key }

/-- Drops the pending key of this level, which must not be required. -/
def dropPending : Scan Unit := do
  let s ← get
  match s.pending.lookup s.level with
  | some key =>
    if key.required then stop "could not find expected ':'"
    set { s with pending := s.pending.filter fun (level, _) => level != s.level }
  | none => pure ()

/-- Remembers that a key may begin here, where one is allowed. -/
def savePending : Scan Unit := do
  let s ← get
  if s.keyAllowed then
    dropPending
    let required := s.level == 0 && s.indent == (s.cursor.column : Int)
    let key : PendingKey :=
      ⟨s.newest.length, required, s.cursor.index, s.cursor.line, s.cursor.column⟩
    modify fun s => { s with pending := (s.level, key) :: s.pending }

/-! ### Columns -/

/-- Ends the block collections that lie to the right of a column. The columns of the open
collections are at hand, so this is recursion on them. -/
def closedTo (column : Int) : Int → List Int → List Token → Int × List Int × List Token
  | indent, [], tokens => (indent, [], tokens)
  | indent, next :: outer, tokens =>
    if column < indent then closedTo column next outer (.blockEnd :: tokens)
    else (indent, next :: outer, tokens)

/-- Ends the block collections that lie to the right of a column, outside of brackets. -/
def unwind (column : Int) : Scan Unit :=
  modify fun s =>
    if s.level == 0 then
      let (indent, outer, newest) := closedTo column s.indent s.outer s.newest
      { s with indent := indent, outer := outer, newest := newest }
    else
      s

/-- Begins a block collection with a token at a column that lies to the right of the current one;
the token is put before the newest ones, as many as are given. -/
def indentAt (column : Nat) (token : Token) (after : Nat) : Scan Unit :=
  modify fun s =>
    if s.indent < (column : Int) then
      { s with
        indent := column
        outer := s.indent :: s.outer
        newest := s.newest.insertIdx after token }
    else
      s

/-! ### Tokens -/

/-- Past blanks, comments and ends of lines. The first argument bounds the number of lines. -/
def skipToToken : Nat → Scan Unit
  | 0 => pure ()
  | fuel + 1 => do
    let s ← get
    let cursor := s.cursor.skipComment
    match cursor.lineBreak? with
    | some (_, after) =>
      moveTo after
      if s.level == 0 then allowKey true
      skipToToken fuel
    | none => moveTo cursor

/-- The end of the text. -/
def endOfText : Scan Unit := do
  unwind (-1)
  dropPending

/-- A mark between documents or a line of instructions: all block collections end before it. -/
def betweenDocuments (rest : Scan Unit) : Scan Unit := do
  unwind (-1)
  dropPending
  allowKey false
  rest

/-- An opening bracket. -/
def openFlow (token : Token) : Scan Unit := do
  savePending
  modify fun s => { s with level := s.level + 1, keyAllowed := true }
  emitMark token 1

/-- A closing bracket. Outside of brackets there is nothing to close. -/
def closeFlow (token : Token) : Scan Unit := do
  dropPending
  let s ← get
  if s.level == 0 then stop "found a closing bracket without an opening one"
  modify fun s => { s with level := s.level - 1, keyAllowed := false }
  emitMark token 1

/-- A comma between brackets. -/
def flowEntry : Scan Unit := do
  allowKey true
  dropPending
  emitMark .flowEntry 1

/-- A hyphen before an entry. -/
def blockEntry : Scan Unit := do
  let s ← get
  if s.level == 0 then
    if !s.keyAllowed then stop "sequence entries are not allowed here"
    indentAt s.cursor.column .blockSequenceStart 0
  allowKey true
  dropPending
  emitMark .blockEntry 1

/-- A question mark before a key. -/
def explicitKey : Scan Unit := do
  let s ← get
  if s.level == 0 then
    if !s.keyAllowed then stop "mapping keys are not allowed here"
    indentAt s.cursor.column .blockMappingStart 0
  allowKey (s.level == 0)
  dropPending
  emitMark .key 1

/-- A colon before a value. When a key is pending on this level, its token is put before it now, and
so is the beginning of a block mapping when the key lies to the right of the current column. -/
def valueMark : Scan Unit := do
  let s ← get
  match s.pending.lookup s.level with
  | some key =>
    let after := s.newest.length - key.number
    set { s with
      pending := s.pending.filter fun (level, _) => level != s.level
      newest := s.newest.insertIdx after .key }
    if s.level == 0 then indentAt key.column .blockMappingStart (after + 1)
    allowKey false
  | none =>
    if s.level == 0 then
      if !s.keyAllowed then stop "mapping values are not allowed here"
      indentAt s.cursor.column .blockMappingStart 0
    allowKey (s.level == 0)
    dropPending
  emitMark .value 1

/-- An alias, an anchor, a tag or a scalar in quotes, which may begin a key. -/
def nodePart (read : Cursor → Except Fault (Token × Cursor)) : Scan Unit := do
  savePending
  allowKey false
  emitRead read

/-- A block scalar. -/
def block (fold : Bool) : Scan Unit := do
  allowKey true
  dropPending
  let s ← get
  emitRead fun cursor => do
    let (text, after) ← blockScalar fold s.indent cursor
    pure (.scalar false text, after)

/-- A plain scalar, after which a key is allowed when it ended with its line. -/
def plain : Scan Unit := do
  savePending
  let s ← get
  let found := plainScalar (s.level != 0) (s.indent + 1) s.cursor
  moveTo found.after
  allowKey found.crossed
  emit (.scalar true found.text)

/-- The characters that cannot begin a plain scalar. -/
def indicators : List Char :=
  "-?:,[]#&*!|>'\"%@".toList ++ ['\x7b', '\x7d', '\x60']

/-- Whether a plain scalar begins with a character, given the one after it. -/
def beginsPlain (inFlow : Bool) (c : Char) (next : Option Char) : Bool :=
  if endsToken (some c) then false
  else if indicators.contains c then
    !endsToken next && (c == '-' || (!inFlow && (c == '?' || c == ':')))
  else
    true

/-- The token that begins with the given character, which is the next one. -/
def tokenAt (c : Char) : Scan Unit := do
  let s ← get
  let next := s.cursor.second?
  let inFlow := s.level != 0
  let quoted (cursor : Cursor) : Except Fault (Token × Cursor) := do
    let (text, after) ← quotedScalar c cursor
    pure (.scalar false text, after)
  let named (make : Text → Token) (cursor : Cursor) : Except Fault (Token × Cursor) := do
    let (name, after) ← anchorName cursor
    pure (make name, after)
  if c == '%' && s.cursor.column == 0 then betweenDocuments (emitRead instruction)
  else if s.cursor.column == 0 && s.cursor.atMark '-' then
    betweenDocuments (emitMark .documentStart 3)
  else if s.cursor.column == 0 && s.cursor.atMark '.' then
    betweenDocuments (emitMark .documentEnd 3)
  else if c == '[' then openFlow .flowSequenceStart
  else if c == '\x7b' then openFlow .flowMappingStart
  else if c == ']' then closeFlow .flowSequenceEnd
  else if c == '\x7d' then closeFlow .flowMappingEnd
  else if c == ',' then flowEntry
  else if c == '-' && endsToken next then blockEntry
  else if c == '?' && (inFlow || endsToken next) then explicitKey
  else if c == ':' && (inFlow || endsToken next) then valueMark
  else if c == '*' then nodePart (named .alias)
  else if c == '&' then nodePart (named .anchor)
  else if c == '!' then nodePart tagToken
  else if c == '|' && !inFlow then block false
  else if c == '>' && !inFlow then block true
  else if c == '\x27' || c == '"' then nodePart quoted
  else if beginsPlain inFlow c next then plain
  else stop "found character that cannot start any token"

/-- All tokens from here on. The first argument bounds their number. -/
def tokensFrom : Nat → Scan Unit
  | 0 => pure ()
  | fuel + 1 => do
    let s ← get
    skipToToken (s.cursor.rest.length + 1)
    dropStale
    let s ← get
    unwind s.cursor.column
    match s.cursor.peek? with
    | none => endOfText
    | some c =>
      tokenAt c
      tokensFrom fuel

end Scanner

/-- The tokens of a text. -/
def tokens (s : Text) : Except Fault (List Token) := do
  if !s.all isAdmitted then malformed "special characters are not allowed"
  let plain := Text.plainNewlines s
  let body := match plain with
    | c :: rest => if c == byteOrderMark then rest else plain
    | [] => []
  let ((), state) ← (Scanner.tokensFrom (body.length + 1)).run (Scanner.start body)
  pure state.newest.reverse

end Yaml

end LuauReference
