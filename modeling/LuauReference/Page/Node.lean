/-
This file holds pages as trees: blocks such as headings, paragraphs, lists and tables, and inside of
them pieces of text, code and links. A tree says nothing about how it is written. A node that was
made from a value that is no text keeps the reason why it cannot be written, and writing fails with
that.
-/

import LuauReference.Failure
import LuauReference.Json.Basic

namespace LuauReference

/-- A piece of running text. -/
inductive Inline
  | text (content : Text)
  | code (content : Text)
  | strong (content : Text)
  | link (content href : Text)
  | unwritable (cause : Failure)
  deriving DecidableEq, Repr

/-- A block of a page. -/
inductive Block
  | heading (level : Int) (content : Text) (anchor : Option Text)
  | paragraph (inlines : List Inline)
  | markdown (content : Text)
  | codeBlock (code language : Text)
  | bullets (items : List (List Inline))
  | table (headers : List Text) (rows : List (List (List Inline)))
  | unwritable (cause : Failure)
  deriving DecidableEq, Repr

/-- A page: where it goes, its title, its blocks and the values in front of it. -/
structure PageDocument where
  path : Text
  title : Text
  blocks : List Block := []
  frontMatter : Fields := []

namespace PageDocument

/-- The headings of a page, of one level or of all. -/
def headings (page : PageDocument) (level : Option Int) : List (Int × Text × Option Text) :=
  page.blocks.filterMap fun block =>
    match block with
    | .heading depth content anchor =>
      if level.all (· = depth) then some (depth, content, anchor) else none
    | _ => none

/-- The anchors of the headings of a page. -/
def anchors (page : PageDocument) : List Text :=
  (page.headings none).filterMap fun (_, _, anchor) => anchor.filter fun a => !a.isEmpty

end PageDocument

namespace Inline

/-- A text in a cell; nothing for an empty one. -/
def ofText (s : Text) : List Inline :=
  if s.isEmpty then [] else [.text s]

/-- A value as text in a cell. Only texts can be written. -/
def ofValue (value : Json) : List Inline :=
  match value.truthy? with
  | none => []
  | some (.str s) => [.text s]
  | some _ => [.unwritable .noOperation]

/-- A value as code. Only texts can be written; numbers and truth values fail in another way than
lists and objects do. -/
def codeOf : Json → Inline
  | .str s => .code s
  | .arr _ => .unwritable .noOperation
  | .obj _ => .unwritable .noOperation
  | _ => .unwritable .wrongKind

/-- A value as code in a cell; nothing for a value that does not count as set. -/
def codeOfValue (value : Json) : List Inline :=
  (value.truthy?.map codeOf).toList

/-- Puts a text between every two neighbours. -/
def join (separator : Text) : List Inline → List Inline
  | [] => []
  | [only] => [only]
  | first :: second :: more => first :: .text separator :: join separator (second :: more)

end Inline

end LuauReference
