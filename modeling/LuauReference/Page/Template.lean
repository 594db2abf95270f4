/-
This file fills the template of a page. A template is text with two kinds of marks: a name in double
braces stands for a value, and a condition in braces with percent signs keeps or drops the text up
to its end mark. A condition takes the blanks before it on its line and the line feed after it with
it, so that it can stand on a line of its own.
-/

import LuauReference.Page.Markdown
import LuauReference.Program
import LuauReference.Text.Blank
import LuauReference.Yaml.Writer

namespace LuauReference

namespace Template

/-- A piece of a template. -/
inductive Piece
  | text (content : Text)
  | value (name : Text)
  | onlyIf (name : Text)
  | close
  deriving DecidableEq, Repr

/-- What opens the mark of a value. -/
def valueOpen : Text := "\x7b\x7b"

/-- What closes the mark of a value. -/
def valueClose : Text := "\x7d\x7d"

/-- What opens the mark of a condition. -/
def conditionOpen : Text := "\x7b%"

/-- What closes the mark of a condition. -/
def conditionClose : Text := "%\x7d"

/-- A text without the blanks at its end, if these stand alone on their line. -/
def dropLineBlanks (atLineStart : Bool) (s : Text) : Text :=
  let line := (s.reverse.takeWhile (· != '\n')).reverse
  let whole := line.length == s.length
  if (!whole || atLineStart) && Text.isBlankText line then s.take (s.length - line.length) else s

/-- The piece that a condition mark is. Other marks say nothing. -/
def conditionPiece (content : Text) : List Piece :=
  match Text.headWord content with
  | (word, rest) =>
    if word = "if" then [.onlyIf rest] else if word = "endif" then [.close] else []

/-- A text without the end of a line in front of it. -/
def afterLineEnd : Text → Text
  | '\n' :: rest => rest
  | s => s

theorem length_afterLineEnd_le (s : Text) : (afterLineEnd s).length ≤ s.length := by
  unfold afterLineEnd
  split
  · exact Nat.le_succ _
  · exact Nat.le_refl _

/-- The pieces of a template. The text before a mark is given in reverse, and with it whether that
text begins at the start of a line. -/
def pieces (atLineStart : Bool) (before : Text) (s : Text) : List Piece :=
  match s with
  | [] => [.text before.reverse]
  | c :: rest =>
    match _open : Text.after? valueOpen (c :: rest) with
    | some inside =>
      match _close : Text.cut? valueClose inside with
      | some (name, tail) =>
        .text before.reverse :: .value (Text.trim name) :: pieces false [] tail
      | none => pieces atLineStart (c :: before) rest
    | none =>
      match _open : Text.after? conditionOpen (c :: rest) with
      | some inside =>
        match _close : Text.cut? conditionClose inside with
        | some (content, tail) =>
          .text (dropLineBlanks atLineStart before.reverse) :: conditionPiece content
            ++ pieces (tail.head? == some '\n') [] (afterLineEnd tail)
        | none => pieces atLineStart (c :: before) rest
      | none => pieces atLineStart (c :: before) rest
termination_by s.length
decreasing_by
  · exact Nat.lt_of_lt_of_le (Text.length_lt_of_cut? _close (by decide))
      (Text.length_le_of_after? _open)
  · exact Nat.lt_succ_self _
  · exact Nat.lt_of_le_of_lt (length_afterLineEnd_le _)
      (Nat.lt_of_lt_of_le (Text.length_lt_of_cut? _close (by decide))
        (Text.length_le_of_after? _open))
  · exact Nat.lt_succ_self _
  · exact Nat.lt_succ_self _

/-- The text of pieces, given how many conditions that do not hold are open. A name without a value
stands for nothing. -/
def fill (values : Named Text) (closed : Nat) : List Piece → Text
  | [] => []
  | .text content :: rest => (if closed = 0 then content else []) ++ fill values closed rest
  | .value name :: rest =>
    (if closed = 0 then (values.get? name).getD [] else []) ++ fill values closed rest
  | .onlyIf name :: rest =>
    if closed = 0 && !((values.get? name).getD []).isEmpty then
      fill values 0 rest
    else
      fill values (closed + 1) rest
  | .close :: rest => fill values (closed - 1) rest

/-- The text of a template with its values. -/
def render (template : Text) (values : Named Text) : Text :=
  fill values 0 (pieces true [] template)

/-- The name of the file that holds the template of a page. -/
def fileName : Text := "page.md.j2"

/-- The template that is used unless another one is given. -/
def standard : Text :=
  "\x7b% if front_matter %\x7d\n---\n\x7b\x7b front_matter \x7d\x7d\n---\n\n\x7b% endif %\x7d\n".toList
    ++ "<!-- Generated by \x7b\x7b generator \x7d\x7d. Do not edit by hand. -->\n\n".toList
    ++ "\x7b\x7b body \x7d\x7d\n".toList

/-- The writer that fills a template. Blanks around a page are dropped, and it ends with a line
feed. -/
def writer (template : Text) : PageWriter where
  compose frontMatter title body :=
    let header := if frontMatter.isEmpty then [] else Yaml.document frontMatter
    let values : Named Text := [("front_matter", header), ("title", title), ("body", body),
      ("generator", Program.generator)]
    Text.trim (render template values) ++ ['\n']

/-- A template stands for the writer that fills it. -/
instance : Coe Text PageWriter :=
  ⟨writer⟩

end Template

end LuauReference
