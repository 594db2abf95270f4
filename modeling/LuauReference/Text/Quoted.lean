/-
This file writes a text in quotes, the way values inside a list or an object are shown to a
reader. Single quotes are used unless the text holds one and no double quote. The quote in use and
the backslash are written with a backslash before them, and what is not printable by its code.
-/

import LuauReference.Text.Numeral
import LuauReference.Text.Printable

namespace LuauReference

namespace Text

/-- The mark that surrounds a quoted text. -/
def quoteMark (s : Text) : Char :=
  if List.elem '\x27' s && !List.elem '"' s then '"' else '\x27'

/-- A character that does not show as itself, by its code point. -/
def escapeCode (c : Char) : Text :=
  if c.toNat ≤ 0xFF then "\\x".toList ++ hex 2 c.toNat
  else if c.toNat ≤ 0xFFFF then "\\u".toList ++ hex 4 c.toNat
  else "\\U".toList ++ hex 8 c.toNat

/-- A character inside quotes of the given kind. -/
def quoteChar (mark c : Char) : Text :=
  if c = mark || c = '\\' then ['\\', c]
  else if c = '\t' then ['\\', 't']
  else if c = '\n' then ['\\', 'n']
  else if c = '\r' then ['\\', 'r']
  else if isPrintable c then [c]
  else escapeCode c

/-- A text in quotes. -/
def quoted (s : Text) : Text :=
  let mark := quoteMark s
  mark :: s.flatMap (quoteChar mark) ++ [mark]

end Text

end LuauReference
