/-
This file writes JSON values as text that holds ASCII characters only. Characters beyond that range
are written by their UTF-16 units. The spread form puts every item and field on a line of its own,
indented by two spaces per level; the compact form is a single line.
-/

import LuauReference.Json.Basic

namespace LuauReference

namespace Json

/-- A unit of UTF-16 in an escape. -/
def escapeUnit (unit : Nat) : Text :=
  '\\' :: 'u' :: Text.hex 4 unit

/-- A character inside a quoted text. -/
def escapeChar (c : Char) : Text :=
  if c = '"' then ['\\', '"']
  else if c = '\\' then ['\\', '\\']
  else if c = '\n' then ['\\', 'n']
  else if c = '\r' then ['\\', 'r']
  else if c = '\t' then ['\\', 't']
  else if c.toNat = 0x0C then ['\\', 'f']
  else if c.toNat = 0x08 then ['\\', 'b']
  else if 0x20 ≤ c.toNat && c.toNat ≤ 0x7E then [c]
  else if c.toNat < 0x10000 then escapeUnit c.toNat
  else
    let offset := c.toNat - 0x10000
    escapeUnit (0xD800 + offset / 0x400) ++ escapeUnit (0xDC00 + offset % 0x400)

/-- A quoted text. -/
def writeText (s : Text) : Text :=
  '"' :: s.flatMap escapeChar ++ ['"']

/-- A number with a fraction. -/
def writeFloat (x : Binary64) : Text :=
  x.textWith "Infinity" "NaN"

/-- A line feed and the indentation of a level. -/
def newline (level : Nat) : Text :=
  '\n' :: List.replicate (2 * level) ' '

mutual

/-- The spread form of a value whose first line is at the given level. -/
def spread (level : Nat) : Json → Text
  | null => "null"
  | bool true => "true"
  | bool false => "false"
  | int value => Text.ofInt value
  | float value => writeFloat value
  | str value => writeText value
  | arr [] => ['[', ']']
  | arr (item :: items) =>
    '[' :: newline (level + 1) ++ spread (level + 1) item ++ spreadItems (level + 1) items
      ++ newline level ++ [']']
  | obj [] => ['\x7b', '\x7d']
  | obj ((name, value) :: fields) =>
    '\x7b' :: newline (level + 1) ++ writeText name ++ ':' :: ' ' :: spread (level + 1) value
      ++ spreadFields (level + 1) fields ++ newline level ++ ['\x7d']

/-- The items after the first one, each with the comma before it. -/
def spreadItems (level : Nat) : List Json → Text
  | [] => []
  | item :: items => ',' :: newline level ++ spread level item ++ spreadItems level items

/-- The fields after the first one, each with the comma before it. -/
def spreadFields (level : Nat) : List (Text × Json) → Text
  | [] => []
  | (name, value) :: fields =>
    ',' :: newline level ++ writeText name ++ ':' :: ' ' :: spread level value
      ++ spreadFields level fields

end

/-- The text of a document: the spread form and a line feed. -/
def document (value : Json) : Text :=
  spread 0 value ++ ['\n']

mutual

/-- The form of a value on a single line. -/
def compact : Json → Text
  | null => "null"
  | bool true => "true"
  | bool false => "false"
  | int value => Text.ofInt value
  | float value => writeFloat value
  | str value => writeText value
  | arr [] => ['[', ']']
  | arr (item :: items) => '[' :: compact item ++ compactItems items ++ [']']
  | obj [] => ['\x7b', '\x7d']
  | obj ((name, value) :: fields) =>
    '\x7b' :: writeText name ++ ':' :: compact value ++ compactFields fields ++ ['\x7d']

/-- The items after the first one, each with the comma before it. -/
def compactItems : List Json → Text
  | [] => []
  | item :: items => ',' :: compact item ++ compactItems items

/-- The fields after the first one, each with the comma before it. -/
def compactFields : List (Text × Json) → Text
  | [] => []
  | (name, value) :: fields =>
    ',' :: writeText name ++ ':' :: compact value ++ compactFields fields

end

mutual

/-- The value with the fields of every object in the order of their names. -/
def sorted : Json → Json
  | arr items => arr (sortedItems items)
  | obj fields => obj (Text.sortOn Prod.fst (sortedFields fields))
  | other => other

/-- Sorts inside each item. -/
def sortedItems : List Json → List Json
  | [] => []
  | item :: items => sorted item :: sortedItems items

/-- Sorts inside each field. -/
def sortedFields : List (Text × Json) → List (Text × Json)
  | [] => []
  | (name, value) :: fields => (name, sorted value) :: sortedFields fields

end

end Json

end LuauReference
