/-
This file holds the blank characters and the line boundaries of Unicode. Trimming, words and the
word-by-word reading of tags all use one class of blank characters, which is wider than the class
that the core library knows: it has the no-break and ideographic spaces, the separators that end a
line or paragraph, and the four information separators of ASCII.
-/

import LuauReference.Text.Basic

namespace LuauReference

namespace Text

/-! ### Blank characters -/

/-- The code points that count as blank, as inclusive ranges. -/
def blankRanges : List (Nat × Nat) :=
  [(0x09, 0x0D), (0x1C, 0x20), (0x85, 0x85), (0xA0, 0xA0), (0x1680, 0x1680), (0x2000, 0x200A),
    (0x2028, 0x2029), (0x202F, 0x202F), (0x205F, 0x205F), (0x3000, 0x3000)]

/-- Whether a character is blank. -/
def isBlank (c : Char) : Bool :=
  blankRanges.any fun (low, high) => low ≤ c.toNat && c.toNat ≤ high

/-- Drops the blanks at the head. -/
def trimStart (s : Text) : Text :=
  s.dropWhile isBlank

/-- Drops the blanks at the tail. -/
def trimEnd (s : Text) : Text :=
  dropEndWhile isBlank s

/-- Drops the blanks at both ends. -/
def trim (s : Text) : Text :=
  trimEnd (trimStart s)

/-- Whether a text holds nothing but blanks. -/
def isBlankText (s : Text) : Bool :=
  s.all isBlank

/-- Drops spaces and tabs at the head: the indentation of a line of code. -/
def dropIndent (s : Text) : Text :=
  s.dropWhile fun c => c == ' ' || c == '\t'

/-- The spaces and tabs at the head of a line. -/
def indent (s : Text) : Text :=
  s.takeWhile fun c => c == ' ' || c == '\t'

/-- The first word of a text and the trimmed rest. Both are empty for a blank text. -/
def headWord (s : Text) : Text × Text :=
  let body := trimStart s
  (body.takeWhile (!isBlank ·), trim (body.dropWhile (!isBlank ·)))

/-- What follows on the current line: a text that holds no line feed, a last one apart, which is
left out. A text that goes on after a line feed has no such rest. -/
def restOfLine? (s : Text) : Option Text :=
  let line := s.takeWhile (· != '\n')
  match s.dropWhile (· != '\n') with
  | [] => some line
  | [_] => some line
  | _ :: _ :: _ => none

/-! ### Lines -/

/-- The line feeds of a source text cut it into lines; a carriage return before one belongs to
it. -/
def sourceLines (s : Text) : List Text :=
  pieces '\n' (joinReturns s)
where
  /-- Writes a line feed for each pair of carriage return and line feed. -/
  joinReturns : Text → Text
    | '\r' :: '\n' :: rest => '\n' :: joinReturns rest
    | c :: rest => c :: joinReturns rest
    | [] => []

/-- Writes a line feed for every carriage return, alone or before a line feed: the form in which
text files are read. -/
def plainNewlines : Text → Text
  | '\r' :: '\n' :: rest => '\n' :: plainNewlines rest
  | c :: rest => (if c = '\r' then '\n' else c) :: plainNewlines rest
  | [] => []

/-- Whether a character ends a line. -/
def isLineEnd (c : Char) : Bool :=
  (0x0A ≤ c.toNat && c.toNat ≤ 0x0D) || (0x1C ≤ c.toNat && c.toNat ≤ 0x1E) || c.toNat == 0x85
    || c.toNat == 0x2028 || c.toNat == 0x2029

/-- The lines of a text, without their ends. A carriage return and the line feed after it end one
line together, and an end at the very end of the text begins no further line. -/
def lines (s : Text) : List Text :=
  collect [] s
where
  /-- Goes on with a line whose characters so far are given in reverse. -/
  collect (line : Text) : Text → List Text
    | [] => if line.isEmpty then [] else [line.reverse]
    | '\r' :: '\n' :: rest => line.reverse :: collect [] rest
    | c :: rest => if isLineEnd c then line.reverse :: collect [] rest else collect (c :: line) rest

/-- The first line that is not blank, trimmed; empty when there is none. -/
def firstLine (s : Text) : Text :=
  match (lines s).find? (!isBlankText ·) with
  | some line => trim line
  | none => []

/-- Drops the blank lines at the head of a list of lines. -/
def dropBlankLines (body : List Text) : List Text :=
  body.dropWhile isBlankText

/-! ### Letter case -/

/-- The lowercase form of the characters whose lowercase form has a letter of the ASCII range: the
capitals of that range, the Kelvin sign and the capital I with a dot. All others stay as they
are, which no comparison with a lowercase ASCII word can tell from their own lowercase form. -/
def lowerChar (c : Char) : Text :=
  if c.isUpper then [c.toLower]
  else if c.toNat = 0x212A then ['k']
  else if c.toNat = 0x130 then ['i', Char.ofNat 0x307]
  else [c]

/-- The form of a text that is compared with lowercase ASCII words. -/
def lower (s : Text) : Text :=
  s.flatMap lowerChar

end Text

end LuauReference
