/-
This file cuts single lines of code: it drops the comment at the end of a line, splits a list at the
commas that no bracket encloses, and finds the parenthesis that closes another. None of it parses
the language. Brackets of all four kinds share one depth, a closing bracket too many is ignored, and
the head of an arrow is no bracket.
-/

import LuauReference.Text.Blank

namespace LuauReference

namespace Declaration

/-! ### Comments at the end of a line -/

/-- Whether a character begins a quoted string. -/
def isQuote (c : Char) : Bool :=
  c == '\x27' || c == '"' || c == '\x60'

/-- Drops the comment at the end of a line, given the quote that is open at its head. Inside quotes
a backslash takes the next character with it. -/
def dropComment : Option Char → Text → Text
  | some quote, '\\' :: c :: rest => '\\' :: c :: dropComment (some quote) rest
  | some quote, c :: rest => c :: dropComment (if c = quote then none else some quote) rest
  | none, '-' :: '-' :: _ => []
  | none, c :: rest => c :: dropComment (if isQuote c then some c else none) rest
  | _, [] => []

/-- A line without the comment at its end. -/
def codeOf (line : Text) : Text :=
  dropComment none line

/-! ### Lists in brackets -/

/-- Whether a character opens a bracket. -/
def isOpening (c : Char) : Bool :=
  c == '(' || c == '\x7b' || c == '[' || c == '<'

/-- Whether a character closes a bracket. -/
def isClosing (c : Char) : Bool :=
  c == ')' || c == '\x7d' || c == ']' || c == '>'

/-- Whether a character, with the one before it, is the head of an arrow. -/
def isArrowHead (previous : Option Char) (c : Char) : Bool :=
  c == '>' && previous == some '-'

/-- The bracket depth after a character. It does not fall below zero. -/
def depthAfter (depth : Nat) (previous : Option Char) (c : Char) : Nat :=
  if isOpening c then depth + 1
  else if isClosing c && !isArrowHead previous c then depth - 1
  else depth

/-- Puts a character at the head of the first part. -/
def extendFirst (c : Char) : List Text → List Text
  | [] => [[c]]
  | part :: parts => (c :: part) :: parts

/-- The raw parts of a text between the separators at depth zero, given the depth and the character
before its head. -/
def rawParts (separators : Text) (depth : Nat) (previous : Option Char) : Text → List Text
  | [] => [[]]
  | c :: rest =>
    let inner := depthAfter depth previous c
    let parts := rawParts separators inner (some c) rest
    if List.elem c separators && inner == 0 then [] :: parts else extendFirst c parts

/-- The trimmed parts of a text between the separators that no bracket encloses. Blank parts are
left out. -/
def splitTopLevel (separators text : Text) : List Text :=
  ((rawParts separators 0 none text).map Text.trim).filter (!·.isEmpty)

/-- The text before the first equals sign at depth zero, or all of it. -/
def beforeDefault (depth : Nat) (previous : Option Char) : Text → Text
  | [] => []
  | c :: rest =>
    if c == '=' && depth == 0 then []
    else c :: beforeDefault (depthAfter depth previous c) (some c) rest

/-- The text up to the parenthesis that closes the given number of open ones, and what follows
it. -/
def closeParens? (opened : Nat) : Text → Option (Text × Text)
  | [] => none
  | c :: rest =>
    if c = '(' then
      (closeParens? (opened + 1) rest).map fun (inner, tail) => (c :: inner, tail)
    else if c = ')' then
      if opened ≤ 1 then
        some ([], rest)
      else
        (closeParens? (opened - 1) rest).map fun (inner, tail) => (c :: inner, tail)
    else
      (closeParens? opened rest).map fun (inner, tail) => (c :: inner, tail)

/-! ### Heads of declarations -/

/-- What follows a keyword and at least one blank. -/
def afterKeyword? (keyword s : Text) : Option Text :=
  match Text.after? keyword s with
  | some (c :: rest) => if Text.isBlank c then some (Text.trimStart rest) else none
  | _ => none

/-- What follows an optional keyword. -/
def skipKeyword (keyword s : Text) : Text :=
  (afterKeyword? keyword s).getD s

/-- What follows optional blanks, an optional list of type parameters and more blanks. A list that
is not closed is not skipped. -/
def skipGenerics (s : Text) : Text :=
  match Text.trimStart s with
  | '<' :: rest =>
    match Text.cut? ">" rest with
    | some (_, tail) => Text.trimStart tail
    | none => '<' :: rest
  | other => other

end Declaration

end LuauReference
