/-
This file holds the position from which a YAML text is read: what is left of the text and where that
begins. Lines and columns matter to the format, since indentation says what belongs together, and
the number of characters matters because a key must be short.
-/

import LuauReference.Failure
import LuauReference.Yaml.Scalar

namespace LuauReference

namespace Yaml

/-- Why a YAML text has no value: it breaks a rule of the format, or one of its parts stands for a
value that does not exist. -/
inductive Fault
  | malformed (detail : Text)
  | value (failure : Failure)

/-- A breach of the format, in words. -/
def malformed {α : Type} (detail : String) : Except Fault α :=
  .error (.malformed detail.toList)

/-! ### Characters -/

/-- Whether the next character ends the line; the end of the text does. -/
def endsLine : Option Char → Bool
  | none => true
  | some c => isBreak c

/-- Whether the next character is a space, ends the line or is missing. -/
def endsWord (next : Option Char) : Bool :=
  endsLine next || next == some ' '

/-- Whether the next character is blank, ends the line or is missing. -/
def endsToken (next : Option Char) : Bool :=
  endsWord next || next == some '\t'

/-- A letter, a digit, a hyphen or an underscore. -/
def isNameChar (c : Char) : Bool :=
  c.isAlphanum || c == '-' || c == '_'

/-- A character that may occur in a YAML text. -/
def isAdmitted (c : Char) : Bool :=
  let n := c.toNat
  c == '\t' || c == '\n' || c == '\r' || (0x20 ≤ n && n ≤ 0x7E) || n == 0x85
    || (0xA0 ≤ n && n ≤ 0xD7FF) || (0xE000 ≤ n && n ≤ 0xFFFD) || 0x10000 ≤ n

/-- The mark that may stand at the beginning of a text and takes up no column. -/
def byteOrderMark : Char := '\uFEFF'

/-! ### The cursor -/

/-- What is left of a text, how many characters came before it, and its line and column. -/
structure Cursor where
  rest : Text
  index : Nat
  line : Nat
  column : Nat

namespace Cursor

/-- The beginning of a text. -/
def start (s : Text) : Cursor :=
  ⟨s, 0, 0, 0⟩

/-- The next character. -/
def peek? (cursor : Cursor) : Option Char :=
  cursor.rest.head?

/-- The character after the next one. -/
def second? (cursor : Cursor) : Option Char :=
  cursor.rest[1]?

/-- Past the next character. -/
def step (cursor : Cursor) : Cursor :=
  match cursor.rest with
  | [] => cursor
  | c :: rest =>
    if isBreak c then ⟨rest, cursor.index + 1, cursor.line + 1, 0⟩
    else if c == byteOrderMark then ⟨rest, cursor.index + 1, cursor.line, cursor.column⟩
    else ⟨rest, cursor.index + 1, cursor.line, cursor.column + 1⟩

/-- Past the given number of characters. -/
def steps : Nat → Cursor → Cursor
  | 0, cursor => cursor
  | n + 1, cursor => steps n cursor.step

/-- The longest run of characters of a class, and the place after it. -/
def run (test : Char → Bool) (cursor : Cursor) : Text × Cursor :=
  let taken := cursor.rest.takeWhile test
  (taken, cursor.steps taken.length)

/-- Past the longest run of characters of a class. -/
def skip (test : Char → Bool) (cursor : Cursor) : Cursor :=
  (cursor.run test).2

/-- Past spaces and a comment after them. -/
def skipComment (cursor : Cursor) : Cursor :=
  let cursor := cursor.skip (· == ' ')
  if cursor.peek? == some '#' then cursor.skip (fun c => !isBreak c) else cursor

/-- The end of the line that comes next, as the character it stands for, and the place after it. -/
def lineBreak? (cursor : Cursor) : Option (Char × Cursor) :=
  match cursor.peek? with
  | some c =>
    if isBreak c then some (if c == '\u0085' then '\n' else c, cursor.step) else none
  | none => none

/-- Past the end of the line if it comes next. -/
def skipBreak (cursor : Cursor) : Cursor :=
  match cursor.lineBreak? with
  | some (_, after) => after
  | none => cursor

/-- Whether a mark of three equal characters comes next and nothing is joined to it. -/
def atMark (mark : Char) (cursor : Cursor) : Bool :=
  Text.startsWith cursor.rest [mark, mark, mark] && endsToken cursor.rest[3]?

/-- Whether a mark that begins or ends a document comes next. -/
def atDocumentMark (cursor : Cursor) : Bool :=
  cursor.atMark '-' || cursor.atMark '.'

end Cursor

/-- What the end of a line in the middle of a scalar stands for, given the empty lines after it: a
plain end is a space when no empty line follows and nothing when one does. -/
def folded (lineEnd : Char) (emptyLines : Text) : Text :=
  if lineEnd != '\n' then lineEnd :: emptyLines
  else if emptyLines.isEmpty then [' ']
  else emptyLines

end Yaml

end LuauReference
