/-
This file writes the trees of pages as Markdown. Text is freed of the marks of tags, code spans and
code blocks get fences that their content does not hold, and the cells of tables escape the bars and
line feeds that would end them. What frames the body of a page is left to a writer.
-/

import LuauReference.Page.Node
import LuauReference.Text.Numeral

namespace LuauReference

namespace Markdown

/-! ### Inlines -/

/-- A text with the marks of tags written as entities. -/
def escape (s : Text) : Text :=
  Text.substitute '>' "&gt;" (Text.substitute '<' "&lt;" s)

/-- A code span. Text with a backtick is put between two backticks on each side, with a space where
it begins or ends with one. -/
def codeSpan (s : Text) : Text :=
  let fence : Text := if List.elem '\x60' s then ['\x60', '\x60'] else ['\x60']
  let padding : Text :=
    if s.head? = some '\x60' || s.getLast? = some '\x60' then [' '] else []
  fence ++ padding ++ s ++ padding ++ fence

/-- A piece of running text. -/
def inline : Inline → Except Failure Text
  | .code content => .ok (codeSpan content)
  | .link content href => .ok ('[' :: escape content ++ ']' :: '(' :: href ++ [')'])
  | .strong content => .ok ("**".toList ++ escape content ++ "**".toList)
  | .text content => .ok (escape content)
  | .unwritable cause => .error cause

/-- Running text. -/
def inlines (items : List Inline) : Except Failure Text := do
  let parts ← items.mapM inline
  pure parts.flatten

/-! ### Blocks -/

/-- A cell of a table: bars are escaped and line feeds are written as breaks. -/
def cell (items : List Inline) : Except Failure Text := do
  let text ← inlines items
  pure (Text.substitute '\n' "<br />" (Text.substitute '|' "\\|" text))

/-- A line of a table. -/
def tableLine (cells : List Text) : Text :=
  "| ".toList ++ Text.join " | " cells ++ " |".toList

/-- A row of a table, filled up to the number of columns. -/
def tableRow (columns : Nat) (cells : List (List Inline)) : Except Failure Text := do
  let texts ← cells.mapM cell
  pure (tableLine (texts ++ List.replicate (columns - texts.length) []))

/-- The length of the longest run of backticks, given the length of the run before the text. -/
def longestRun (run : Nat) : Text → Nat
  | [] => run
  | c :: rest => if c = '\x60' then longestRun (run + 1) rest else max run (longestRun 0 rest)

/-- The fence of a code block: longer than every run of backticks in the code. -/
def fenceFor (code : Text) : Text :=
  List.replicate (max 3 (longestRun 0 code + 1)) '\x60'

/-- A heading with its anchor. -/
def heading (level : Int) (content : Text) (anchor : Option Text) : Text :=
  let mark := match anchor with
    | some (c :: rest) => " \x7b#".toList ++ c :: rest ++ ['\x7d']
    | _ => []
  List.replicate level.toNat '#' ++ ' ' :: escape content ++ mark

/-- A block of a page. -/
def block : Block → Except Failure Text
  | .heading level content anchor => .ok (heading level content anchor)
  | .paragraph items => inlines items
  | .markdown content => .ok (Text.trimWhere (· == '\n') content)
  | .codeBlock code language =>
    let fence := fenceFor code
    .ok (fence ++ language ++ '\n' :: code ++ '\n' :: fence)
  | .bullets items => do
    let texts ← items.mapM inlines
    pure (Text.join "\n" (texts.map ("- ".toList ++ ·)))
  | .table headers rows => do
    let texts ← rows.mapM (tableRow headers.length)
    pure (Text.join "\n" (tableLine headers :: tableLine (headers.map fun _ => "---".toList)
      :: texts))
  | .unwritable cause => .error cause

/-- The body of a page: the blocks that are not blank, with a blank line between them. -/
def body (blocks : List Block) : Except Failure Text := do
  let texts ← blocks.mapM block
  pure (Text.join "\n\n" (texts.filter (!Text.isBlankText ·)))

end Markdown

/-! ### Pages -/

/-- What makes the text of a page of its front matter, its title and its body. A project can bring
one of its own, so nothing is known of it but that it gives a text. -/
structure PageWriter where
  compose : Fields → Text → Text → Text

/-- The text of a page. -/
def PageDocument.write (page : PageDocument) (writer : PageWriter) : Except Failure Text := do
  let body ← Markdown.body page.blocks
  pure (writer.compose page.frontMatter page.title body)

end LuauReference
