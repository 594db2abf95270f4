/-
This file writes the values in front of a page as YAML. Collections are written in block form, lists
inside of objects are not indented, and texts are written plainly where that reads back as the same
text, in single quotes where they are on one line or can be folded, and in double quotes with
escapes where nothing else will do. Lines are folded at single spaces once they are longer than
eighty characters.

Writing keeps a pen: what has been written, the column it stands in, whether the last thing was
blank and whether only indentation and markers stand before it on the line.
-/

import LuauReference.Json.Basic
import LuauReference.Yaml.Scalar

namespace LuauReference

namespace Yaml

/-! ### The pen -/

/-- Where writing stands. The text is kept in reverse. -/
structure Pen where
  written : Text := []
  column : Nat := 0
  afterBlank : Bool := true
  indenting : Bool := true

/-- Lines longer than this are folded. -/
def bestWidth : Nat := 80

namespace Pen

/-- Writes a text that has no line break. -/
def put (pen : Pen) (s : Text) : Pen :=
  { pen with written := s.reverse ++ pen.written, column := pen.column + s.length }

/-- Ends the line with the given character. -/
def breakLine (pen : Pen) (c : Char) : Pen :=
  ⟨c :: pen.written, 0, true, true⟩

/-- Goes to the given column of the current line, or of a new one when the line has content. -/
def toIndent (pen : Pen) (indent : Nat) : Pen :=
  let pen :=
    if !pen.indenting || indent < pen.column || (pen.column = indent && !pen.afterBlank) then
      pen.breakLine '\n'
    else
      pen
  if pen.column < indent then
    { pen.put (List.replicate (indent - pen.column) ' ') with afterBlank := true }
  else
    pen

/-- Writes a marker, with a space before it where one is needed. -/
def mark (pen : Pen) (marker : Text) (needsBlank blankAfter keepsIndent : Bool) : Pen :=
  let pen := pen.put (if pen.afterBlank || !needsBlank then marker else ' ' :: marker)
  { pen with afterBlank := blankAfter, indenting := pen.indenting && keepsIndent }

/-- Says that content has been written. -/
def content (pen : Pen) : Pen :=
  { pen with afterBlank := false, indenting := false }

end Pen

/-! ### How a text can be written -/

/-- Whether a character ends a word inside of a scalar. -/
def isBlankOrBreak (c : Char) : Bool :=
  c.toNat == 0 || c == ' ' || c == '\t' || c == '\r' || isBreak c

/-- Whether a character can be written only with an escape. -/
def isSpecial (c : Char) : Bool :=
  let n := c.toNat
  !(c == '\n' || (0x20 ≤ n && n ≤ 0x7E) || n == 0x85
    || (0xA0 ≤ n && n ≤ 0xFFFD && n != 0xFEFF) || (0x10000 ≤ n && n < 0x10FFFF))

/-- Whether what follows a character is the end, a blank or a break. -/
def isWordEnd : Text → Bool
  | [] => true
  | c :: _ => isBlankOrBreak c

/-- Whether a character at the head of a text, with what follows, is a mark of block form. -/
def isHeadMark (c : Char) (rest : Text) : Bool :=
  List.elem c ['#', ',', '[', ']', '\x7b', '\x7d', '&', '*', '!', '|', '>', '\x27', '"', '%', '@',
    '\x60'] || ((c == '?' || c == ':' || c == '-') && isWordEnd rest)

/-- Whether a mark of block form stands in a text after its head, given whether a blank is
before. -/
def hasInnerMark (afterBlank : Bool) : Text → Bool
  | [] => false
  | c :: rest =>
    (c == ':' && isWordEnd rest) || (c == '#' && afterBlank) || hasInnerMark (isBlankOrBreak c) rest

/-- Whether a text holds a mark that would give it another meaning in block form. -/
def hasMark (s : Text) : Bool :=
  match s with
  | [] => false
  | c :: rest =>
    Text.startsWith s "---" || Text.startsWith s "..." || isHeadMark c rest
      || hasInnerMark (isBlankOrBreak c) rest

/-- Whether two characters of the given classes follow each other in a text. -/
def hasPair (first second : Char → Bool) : Text → Bool
  | a :: b :: rest => (first a && second b) || hasPair first second (b :: rest)
  | _ => false

/-- Whether the first or the last character of a text is of a class. -/
def hasEnd (test : Char → Bool) (s : Text) : Bool :=
  s.head?.any test || s.getLast?.any test

/-- Whether a character is the space. -/
def isSpaceChar (c : Char) : Bool :=
  c == ' '

/-- Whether a space stands before a break, or a character needs an escape. -/
def needsEscapes (s : Text) : Bool :=
  hasPair isSpaceChar isBreak s || s.any isSpecial

/-- Whether a text goes over several lines. -/
def isMultiline (s : Text) : Bool :=
  s.any isBreak

/-- Whether a text can be written without quotes and reads back as a text. -/
def isPlain (s : Text) : Bool :=
  !s.isEmpty && kindOf s == .str && !hasMark s && !isMultiline s && !needsEscapes s
    && !hasEnd isSpaceChar s

/-- Whether a text can be written in single quotes. -/
def isSingleQuotable (s : Text) : Bool :=
  !needsEscapes s && !hasPair isBreak isSpaceChar s

/-! ### Writing texts -/

/-- The runs of a text: spaces, breaks and all else. -/
def runs (s : Text) : List Text :=
  s.splitBy fun a b => (a == ' ') == (b == ' ') && isBreak a == isBreak b

/-- Writes the breaks between two lines of a folded text: one more line feed when the first is
one. -/
def putBreaks (pen : Pen) (indent : Nat) (breaks : Text) : Pen :=
  let pen := if breaks.head? == some '\n' then pen.breakLine '\n' else pen
  (breaks.foldl Pen.breakLine pen).toIndent indent

/-- Writes a text without quotes. -/
def putPlain (pen : Pen) (indent : Nat) (folds : Bool) (s : Text) : Pen :=
  let pen := (if pen.afterBlank then pen else pen.put [' ']).content
  (runs s).foldl (fun pen run =>
    if run == [' '] && folds && bestWidth < pen.column then (pen.toIndent indent).content
    else pen.put run) pen

/-- Writes the runs of a text in single quotes, given whether a run stands before. -/
def putQuotedRuns (pen : Pen) (indent : Nat) (folds first : Bool) : List Text → Pen
  | [] => pen
  | run :: rest =>
    let pen :=
      if run.head?.any isBreak then
        putBreaks pen indent run
      else if run == [' '] && folds && !first && !rest.isEmpty && bestWidth < pen.column then
        pen.toIndent indent
      else
        pen.put (Text.substitute '\x27' ['\x27', '\x27'] run)
    putQuotedRuns pen indent folds false rest

/-- Writes a text in single quotes. -/
def putSingleQuoted (pen : Pen) (indent : Nat) (folds : Bool) (s : Text) : Pen :=
  let pen := pen.mark ['\x27'] true false false
  (putQuotedRuns pen indent folds true (runs s)).mark ['\x27'] false false false

/-- The characters that have an escape of one letter. -/
def escapeLetters : List (Nat × Char) :=
  [(0x00, '0'), (0x07, 'a'), (0x08, 'b'), (0x09, 't'), (0x0A, 'n'), (0x0B, 'v'), (0x0C, 'f'),
    (0x0D, 'r'), (0x1B, 'e'), (0x22, '"'), (0x5C, '\\'), (0x85, 'N'), (0xA0, '_'), (0x2028, 'L'),
    (0x2029, 'P')]

/-- The escape of a character, if it has to have one in double quotes. -/
def escape? (c : Char) : Option Text :=
  let n := c.toNat
  let shown := (0x20 ≤ n && n ≤ 0x7E) || (0xA0 ≤ n && n ≤ 0xFFFD)
  if shown && !List.elem n [0x22, 0x5C, 0x85, 0x2028, 0x2029, 0xFEFF] then
    none
  else
    some (match escapeLetters.lookup n with
      | some letter => ['\\', letter]
      | none =>
        if n ≤ 0xFF then '\\' :: 'x' :: Text.hexUpper 2 n
        else if n ≤ 0xFFFF then '\\' :: 'u' :: Text.hexUpper 4 n
        else '\\' :: 'U' :: Text.hexUpper 8 n)

/-- Ends a line inside of double quotes and goes on with the given character, whose blank has to be
escaped at the head of a line. -/
def foldEscaped (pen : Pen) (indent : Nat) (next : Option Char) : Pen :=
  let pen := ((pen.put ['\\']).toIndent indent).content
  if next == some ' ' then pen.put ['\\'] else pen

/-- Writes the characters of a text in double quotes. Characters that have no escape wait until a
line can be folded; they are given in reverse. -/
def putEscaped (pen : Pen) (indent : Nat) (folds first : Bool) (waiting : Text) : Text → Pen
  | [] => pen.put waiting.reverse
  | c :: rest =>
    let foldable := folds && !first && !rest.isEmpty
    match escape? c with
    | some escaped =>
      let pen := (pen.put waiting.reverse).put escaped
      let pen :=
        if foldable && bestWidth < pen.column - 1 then foldEscaped pen indent rest.head? else pen
      putEscaped pen indent folds false [] rest
    | none =>
      if foldable && (c == ' ' || waiting.isEmpty) && bestWidth < pen.column + waiting.length then
        let pen := foldEscaped (pen.put waiting.reverse) indent (some c)
        putEscaped pen indent folds false [c] rest
      else
        putEscaped pen indent folds false (c :: waiting) rest

/-- Writes a text in double quotes. -/
def putDoubleQuoted (pen : Pen) (indent : Nat) (folds : Bool) (s : Text) : Pen :=
  let pen := pen.mark ['"'] true false false
  (putEscaped pen indent folds true [] s).mark ['"'] false false false

/-- Writes a text in the plainest way that reads back as the same text. -/
def putText (pen : Pen) (indent : Nat) (folds : Bool) (s : Text) : Pen :=
  if isPlain s then putPlain pen indent folds s
  else if isSingleQuotable s && (folds || !isMultiline s) then putSingleQuoted pen indent folds s
  else putDoubleQuoted pen indent folds s

/-! ### Writing values -/

/-- A number with a fraction, in the form that reads back as one. -/
def floatText (x : Binary64) : Text :=
  match x with
  | .undefined => ".nan"
  | .infinite negative => if negative then "-.inf" else ".inf"
  | .finite .. =>
    let text := x.text
    match Text.cut? "e" text with
    | some (digits, exponent) =>
      if List.elem '.' digits then text else digits ++ ".0e".toList ++ exponent
    | none => text

/-- Names longer than this cannot stand before a colon. -/
def longestName : Nat := 122

/-- Whether a name can stand before a colon. -/
def isSimpleName (name : Text) : Bool :=
  !name.isEmpty && !isMultiline name && name.length ≤ longestName

/-- Writes a name and the colon after it. A name that cannot stand before a colon is marked. -/
def putName (pen : Pen) (indent : Nat) (name : Text) : Pen :=
  let pen := pen.toIndent indent
  if isSimpleName name then
    (putText pen (indent + 2) false name).mark [':'] false false false
  else
    let pen := putText (pen.mark ['?'] true false true) (indent + 2) true name
    (pen.toIndent indent).mark [':'] true false true

mutual

/-- Writes a value at the given indentation, given whether it is the value of a name. -/
def putValue (pen : Pen) (indent : Nat) (named : Bool) : Json → Pen
  | .null => putPlain pen (indent + 2) true "null"
  | .bool true => putPlain pen (indent + 2) true "true"
  | .bool false => putPlain pen (indent + 2) true "false"
  | .int value => putPlain pen (indent + 2) true (Text.ofInt value)
  | .float value => putPlain pen (indent + 2) true (floatText value)
  | .str value => putText pen (indent + 2) true value
  | .arr items =>
    if items.isEmpty then
      (pen.mark ['['] true true false).mark [']'] false false false
    else
      putItems pen (if named && !pen.indenting then indent else indent + 2) items
  | .obj fields =>
    if fields.isEmpty then
      (pen.mark ['\x7b'] true true false).mark ['\x7d'] false false false
    else
      putFields pen (indent + 2) fields

/-- Writes the items of a list. -/
def putItems (pen : Pen) (indent : Nat) : List Json → Pen
  | [] => pen
  | item :: items =>
    let pen := (pen.toIndent indent).mark ['-'] true false true
    putItems (putValue pen indent false item) indent items

/-- Writes the fields of an object. -/
def putFields (pen : Pen) (indent : Nat) : List (Text × Json) → Pen
  | [] => pen
  | (name, value) :: fields =>
    putFields (putValue (putName pen indent name) indent true value) indent fields

end

/-- The text of the fields of an object, without blanks around it. -/
def document (fields : Fields) : Text :=
  Text.trim (putFields {} 0 fields).written.reverse

end Yaml

end LuauReference
