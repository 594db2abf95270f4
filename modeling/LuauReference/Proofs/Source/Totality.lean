/-
This file proves that nothing fails between the lines of source files and the texts of their pages.
Lines may be anything: comments that are not closed, braces without a partner, tags without a value.
Whatever reads a file by an index stays inside of it, a function always finds the names of its
parameters, and every page is laid out and written, for all settings and every writer.
-/

import LuauReference.Page.Template
import LuauReference.Proofs.Page.Render

namespace LuauReference

/-! ### Functions -/

/-- The text of a function is that of the objects of its parameters and results. -/
theorem Assembly.functionTextOf_functionTypes {record : Doc.Record}
    {signature : Option Declaration.Signature} (sound : record.IsSound)
    (declared : ∀ found ∈ signature, found.IsSound) (isMethod : Bool) :
    functionTextOf (Page.entriesOf (functionTypes record signature isMethod).fields "params")
        (Page.entriesOf (functionTypes record signature isMethod).fields "returns") =
      .ok (functionTypes record signature isMethod).display := by
  obtain ⟨params, returns, errors, same, named, typed⟩ := functionTypes_eq sound declared isMethod
  have objects (items : List Described) :
      (items.map Described.toJson).filterMap Json.fields? = items.map Described.toFields :=
    Json.filterMap_fields?_map Described.toFields items
  rw [same]
  show functionTextOf ((params.map Described.toJson).filterMap Json.fields?)
    ((returns.map Described.toJson).filterMap Json.fields?) = _
  rw [objects, objects]
  exact functionTextOf_toFields named typed

/-- The symbol of a function shows the text of its parameters and results. -/
theorem functionTextOf_of_mem_assemble {lines : List Text} {file : Text} {symbol : Symbol}
    (member : symbol ∈ (assemble lines file).1)
    (callable : symbol.kind = "function" ∨ symbol.kind = "constructor") :
    Assembly.functionTextOf (Page.entriesOf symbol.types.fields "params")
      (Page.entriesOf symbol.types.fields "returns") = .ok symbol.types.display := by
  obtain ⟨record, block, declaration, sound, inside, declared, own⟩ :=
    Assembly.mem_assembleRecords Assembly.isIn_of_mem_recordsOf member
  obtain ⟨kind, name, within, isMethod, location, visibility, _, _, _, own | field⟩ :=
    Assembly.mem_blockSymbols inside declared own
  · have signatures := Assembly.isSound_of_isIn declared
    subst own
    have worded : kind.word = "function" ∨ kind.word = "constructor" := callable
    cases kind with
    | function => exact Assembly.functionTextOf_functionTypes sound signatures isMethod
    | constructor => exact Assembly.functionTextOf_functionTypes sound signatures isMethod
    | _ => exact absurd worded (by decide)
  · exact absurd callable (by rw [Assembly.kind_of_mem_fieldSymbols field]; decide)

/-! ### Reading a file by position -/

namespace Source

/-- Whether whatever looks at a file by an index returns and stays inside of the file, and every
function of the file is written with the names of its parameters. -/
structure IsReadable (lines : List Text) : Prop where
  blockAt : ∀ index < lines.length, ∃ found, Comment.blockAtIndex lines index = .ok found ∧
    ∀ block ∈ found, block.IsIn lines
  longAt : ∀ index line rest, lines.drop index = line :: rest →
    (Text.trimStart line).startsWith Comment.opener = true →
    ∃ content last closed, Comment.longAtIndex lines index = .ok (content, last, closed) ∧
      index ≤ last ∧ last < lines.length
  blocks : ∀ block ∈ Comment.blocks lines, block.IsIn lines
  tableAt : ∀ index < lines.length, ∃ fields last,
    Declaration.tableAtIndex lines index = .ok (fields, last) ∧ index ≤ last ∧ last < lines.length
  tables : ∀ range ∈ Declaration.tableRanges lines, Declaration.IsRangeIn lines range
  declarationAt : ∀ index < lines.length, ∃ found, Declaration.atIndex lines index = .ok found ∧
    ∀ declaration ∈ found, declaration.IsIn lines
  attached : ∀ block declaration, Declaration.afterBlock? lines block = some declaration →
    declaration.IsIn lines
  functions : ∀ file, ∀ symbol ∈ (assemble lines file).1,
    symbol.kind = "function" ∨ symbol.kind = "constructor" →
    Assembly.functionTextOf (Page.entriesOf symbol.types.fields "params")
      (Page.entriesOf symbol.types.fields "returns") = .ok symbol.types.display

theorem isReadable (lines : List Text) : IsReadable lines where
  blockAt _ inside := Comment.blockAtIndex_returns inside
  longAt _ _ _ place opens := Comment.longAtIndex_returns place opens
  blocks _ member := Comment.isIn_of_mem_blocks member
  tableAt _ inside := Declaration.tableAtIndex_returns inside
  tables _ member := Declaration.isRangeIn_of_mem_tableRanges member
  declarationAt _ inside := Declaration.atIndex_returns inside
  attached _ _ found := Declaration.isIn_of_afterBlock? found
  functions _ _ member callable := functionTextOf_of_mem_assemble member callable

/-! ### From lines to pages -/

theorem isShaped_of_isMadeOf {reference : Reference} {files : List (Text × List Text)}
    (made : reference.IsMadeOf files) : ∀ symbol ∈ reference.symbols, symbol.types.IsShaped := by
  intro symbol member
  obtain ⟨module_, inside, held⟩ := List.mem_flatMap.mp member
  obtain ⟨file, _, assembled⟩ := made.isAssembled inside
  exact (assembled symbol held).types

/-- Whatever the lines of source files are, they are read without leaving the file, and the pages of
their reference are laid out, written one by one and rendered. -/
theorem pages_returned {reference : Reference} {files : List (Text × List Text)}
    (made : reference.IsMadeOf files) (settings : PageSettings) (writer : PageWriter) :
    (∀ file ∈ files, IsReadable file.2) ∧
      (∃ pages, Page.documents settings reference = .ok pages ∧
        ∀ page ∈ pages, ∃ body, Markdown.body page.blocks = .ok body) ∧
      ∃ texts, Page.render settings writer reference = .ok texts := by
  have shaped := isShaped_of_isMadeOf made
  obtain ⟨pages, laidOut, writable⟩ := Page.documents_give settings shaped
  obtain ⟨texts, rendered, _⟩ := Page.render_gives settings writer shaped
  refine ⟨fun file _ => isReadable file.2, ⟨pages, laidOut, ?_⟩, texts, rendered⟩
  intro page member
  obtain ⟨body, written, _⟩ := Markdown.body_gives (writable page member)
  exact ⟨body, written⟩

/-- Source files that are cut off: a function with a parameter tag without a value, braces without a
partner, and a comment that is never closed, in which an interface takes over the type of the
function. The second file has no lines. -/
def cutOffFiles : List (Text × List Text) :=
  [("Door.luau", ["--- @class Door", "", "--- @function open", "--- @within Door", "--- @param",
      "--- @param speed number", "type Lock = \x7b", "\x7d\x7d\x7d", "--[=[", "@interface Key",
      "@within Door", "@inheritDoc Door.open"]),
    ("Empty.luau", [])]

/-- The reference of these files. -/
def cutOffReference : Reference where
  generatorVersion := Program.version
  modules := cutOffFiles.map fun file =>
    ⟨file.1, file.1, [], inheritDocs (assemble file.2 file.1).1⟩

theorem pages_returned_cutOff :
    cutOffReference.symbols.map Symbol.qualified =
        ["Door".toList, "Door.open".toList, "Door.Key".toList] ∧
      cutOffReference.IsMadeOf cutOffFiles ∧
      (∀ file ∈ cutOffFiles, IsReadable file.2) ∧
      (∃ pages, Page.documents {} cutOffReference = .ok pages ∧
        ∀ page ∈ pages, ∃ body, Markdown.body page.blocks = .ok body) ∧
      ∃ texts, Page.render {} Template.standard cutOffReference = .ok texts := by
  have made : cutOffReference.IsMadeOf cutOffFiles := rfl
  exact ⟨by decide +kernel, made, pages_returned made {} Template.standard⟩

end Source

end LuauReference
