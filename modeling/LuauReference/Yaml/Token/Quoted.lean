/-
This file reads scalars in quotes. Between single quotes a quote is written twice and nothing else
is special; between double quotes a backslash begins an escape. In both, lines are folded and the
blanks around the end of a line do not count.
-/

import LuauReference.Text.Numeral
import LuauReference.Yaml.Cursor

namespace LuauReference

namespace Yaml

/-! ### Escapes -/

/-- The character that a letter after a backslash stands for. -/
def escaped? : Char → Option Char
  | '0' => some '\x00'
  | 'a' => some '\x07'
  | 'b' => some '\x08'
  | 't' => some '\t'
  | '\t' => some '\t'
  | 'n' => some '\n'
  | 'v' => some '\x0b'
  | 'f' => some '\x0c'
  | 'r' => some '\r'
  | 'e' => some '\x1b'
  | ' ' => some ' '
  | '"' => some '"'
  | '\\' => some '\\'
  | '/' => some '/'
  | 'N' => some '\u0085'
  | '_' => some '\u00A0'
  | 'L' => some '\u2028'
  | 'P' => some '\u2029'
  | _ => none

/-- How many digits follow a letter that introduces the number of a character. -/
def escapeWidth? : Char → Option Nat
  | 'x' => some 2
  | 'u' => some 4
  | 'U' => some 8
  | _ => none

/-- The character with a number. There is none beyond the last code point, and the numbers that
belong to pairs of units are read as the replacement character. -/
def charOfNumber (n : Nat) : Except Fault Char :=
  if 0x10FFFF < n then .error (.value .badValue)
  else if 0xD800 ≤ n && n ≤ 0xDFFF then .ok '\uFFFD'
  else .ok (Char.ofNat n)

/-- The character whose number is written by the given count of hexadecimal digits. -/
def numberedChar (width : Nat) (cursor : Cursor) : Except Fault (Char × Cursor) := do
  let digits := cursor.rest.take width
  match (if digits.length = width then Text.naturalIn? 16 digits else none) with
  | some n => do
    let c ← charOfNumber n
    pure (c, cursor.steps width)
  | none => malformed "expected an escape sequence of hexadecimal digits"

/-! ### Lines -/

/-- The ends of empty lines inside of quotes; a mark between documents must not come between. The
first argument bounds the number of lines. -/
def quotedBreaks : Nat → Cursor → Except Fault (Text × Cursor)
  | 0, cursor => .ok ([], cursor)
  | fuel + 1, cursor =>
    if cursor.atDocumentMark then
      malformed "found unexpected document separator"
    else
      let cursor := cursor.skip fun c => c == ' ' || c == '\t'
      match cursor.lineBreak? with
      | some (lineEnd, after) => do
        let (more, last) ← quotedBreaks fuel after
        pure (lineEnd :: more, last)
      | none => .ok ([], cursor)

/-- Blanks inside of quotes, with a line that may end in them. -/
def quotedBlanks (cursor : Cursor) : Except Fault (Text × Cursor) := do
  let (blanks, cursor) := cursor.run fun c => c == ' ' || c == '\t'
  match cursor.lineBreak? with
  | some (lineEnd, after) => do
    let (more, last) ← quotedBreaks (after.rest.length + 1) after
    pure (folded lineEnd more, last)
  | none =>
    if cursor.rest.isEmpty then malformed "found unexpected end of stream"
    else pure (blanks, cursor)

/-- What a backslash and the characters after it stand for, from the place after the backslash. -/
def escape (cursor : Cursor) : Except Fault (Text × Cursor) := do
  match cursor.peek? with
  | none => malformed "found unknown escape character"
  | some c =>
    match escaped? c, escapeWidth? c with
    | some meaning, _ => pure ([meaning], cursor.step)
    | none, some width => do
      let (meaning, after) ← numberedChar width cursor.step
      pure ([meaning], after)
    | none, none =>
      if isBreak c then quotedBreaks (cursor.rest.length + 1) cursor.skipBreak
      else malformed "found unknown escape character"

/-! ### Scalars -/

/-- The rest of a scalar in quotes of the given kind. The first argument bounds the number of its
parts. -/
def quotedFrom (quote : Char) : Nat → Cursor → Except Fault (Text × Cursor)
  | 0, _ => malformed "found unexpected end of stream"
  | fuel + 1, cursor =>
    let double := quote == '"'
    match cursor.peek? with
    | none => malformed "found unexpected end of stream"
    | some c =>
      if c == quote then
        if !double && cursor.second? == some quote then do
          let (more, last) ← quotedFrom quote fuel (cursor.steps 2)
          pure (quote :: more, last)
        else
          .ok ([], cursor.step)
      else if double && c == '\\' then do
        let (meaning, after) ← escape cursor.step
        let (more, last) ← quotedFrom quote fuel after
        pure (meaning ++ more, last)
      else if c == ' ' || c == '\t' || isBreak c then do
        let (blanks, after) ← quotedBlanks cursor
        let (more, last) ← quotedFrom quote fuel after
        pure (blanks ++ more, last)
      else do
        let (more, last) ← quotedFrom quote fuel cursor.step
        pure (c :: more, last)

/-- The scalar in quotes at a place, where the quote stands. -/
def quotedScalar (quote : Char) (cursor : Cursor) : Except Fault (Text × Cursor) :=
  quotedFrom quote (cursor.rest.length + 1) cursor.step

end Yaml

end LuauReference
