/-
This file proves that the summary of a symbol is always the first line of its description.
Descriptions come from the lines of a block, from the blocks in front of the fields of a table type,
from tags for fields and from other symbols, and each of these drops other blanks. What they share
is that no blank is left at the end, so that a description is empty or else has a line that is not
blank, whatever ends its lines. What is taken from another symbol is taken with its summary.
-/

import LuauReference.Proofs.Declaration.Extent
import LuauReference.Proofs.Symbol.Assembly
import LuauReference.Proofs.Symbol.Inherit
import LuauReference.Proofs.Text.Line

namespace LuauReference

namespace Doc

/-! ### Summaries -/

/-- Whether a text is the summary of a description: the first of its lines that is not blank,
trimmed, or nothing when the description is empty. -/
inductive IsSummaryOf : Text → Text → Prop
  | nothing : IsSummaryOf [] []
  | line {description line : Text} {before after : List Text}
      (cut : Text.lines description = before ++ line :: after)
      (blank : ∀ other ∈ before, Text.isBlankText other = true)
      (solid : Text.isBlankText line = false) : IsSummaryOf (Text.trim line) description

/-- Only an empty description has an empty summary. -/
theorem IsSummaryOf.eq_nil_iff {summary description : Text}
    (sums : IsSummaryOf summary description) :
    summary = [] ↔ description = [] := by
  cases sums with
  | nothing => exact Iff.rfl
  | line cut blank solid =>
    refine iff_of_false (Text.trim_ne_nil solid) ?_
    rintro rfl
    exact List.append_ne_nil_of_right_ne_nil _ (List.cons_ne_nil _ _) cut.symm

/-- The first line of a text without blanks at its end is a summary of it. -/
theorem isSummaryOf_firstLine {description : Text}
    (trimmed : Text.trimEnd description = description) :
    IsSummaryOf (Text.firstLine description) description := by
  by_cases empty : description = []
  · rw [empty]
    exact .nothing
  · obtain ⟨before, line, after, cut, blank, solid, first⟩ :=
      Text.exists_firstLine (Text.isBlankText_of_trimEnd_eq trimmed empty)
    rw [first]
    exact .line cut blank solid

/-! ### Descriptions -/

theorem trimEnd_typeAndDescription (value : Text) :
    Text.trimEnd (typeAndDescription value).2 = (typeAndDescription value).2 := by
  unfold typeAndDescription
  split
  · exact Text.trimEnd_trimEnd _
  · rfl

/-- The description of a field in a block has no blanks at its end. -/
theorem Field.IsRead.trimEnd_description {field : Field} (read : field.IsRead) :
    Text.trimEnd (field.description.getD []) = field.description.getD [] := by
  obtain ⟨value, rfl⟩ := read
  rw [fieldOf]
  dsimp only
  rw [getD_nonEmpty?, trimEnd_typeAndDescription]

end Doc

namespace Declaration

/-- The description that a block gives to a field of a table type has no blanks at its end. -/
theorem trimEnd_fieldDescription? (content : Option (List Text)) :
    Text.trimEnd ((fieldDescription? content).getD []) = (fieldDescription? content).getD [] := by
  cases content with
  | none => rfl
  | some lines =>
    rw [fieldDescription?, Doc.getD_nonEmpty?, Text.trimEnd_trimEnd]

/-- The fields of a declaration are described by blocks or not at all. -/
theorem IsIn.description {declaration : Declaration} {lines : List Text}
    (stands : declaration.IsIn lines)
    {fields : List TableField} (held : fields ∈ declaration.tableFields?) :
    ∀ field ∈ fields, ∃ content, field.description = fieldDescription? content := by
  obtain ⟨line, rest, place, found⟩ := exists_line_of_atIndex stands.found
  obtain ⟨shape, shaped, same⟩ := Option.map_eq_some_iff.mp found
  rw [(parts_of_shapeAt? shaped).1 fields (same ▸ held)]
  -- Which block it is does not matter here: only that the text has gone through the same trimming.
  have described := isDescribed_fieldBlocks place
  exact ((List.forall₂_and_left _ _).mp
    (described.imp fun field block gives => ⟨⟨_, gives.description⟩, gives⟩)).1

end Declaration

/-! ### Symbols of a file -/

/-- Whether a symbol has the summary of its description. -/
def Symbol.IsSummed (symbol : Symbol) : Prop :=
  Doc.IsSummaryOf symbol.docs.summary symbol.docs.description

namespace Assembly

theorem isSummed_fieldSymbol {field : Declaration.TableField}
    (trimmed : Text.trimEnd (field.description.getD []) = field.description.getD []) (owner : Text)
    (location : Location) (visibility : Text) :
    (fieldSymbol owner field location visibility).IsSummed :=
  Doc.isSummaryOf_firstLine trimmed

theorem isSummed_of_mem_fieldSymbols {kind : Doc.Kind} {name : Text} {record : Doc.Record}
    {declaration : Option Declaration} {lines : List Text} {file : Text} {location : Location}
    {visibility : Text} {symbol : Symbol} (read : ∀ field ∈ record.fields, field.IsRead)
    (declared : ∀ found ∈ declaration, found.IsIn lines)
    (member : symbol ∈ fieldSymbols kind name record declaration lines file location visibility) :
    symbol.IsSummed := by
  rcases mem_fieldSymbols member with
    ⟨found, held, fields, same, field, inside, place, -, rfl⟩ | ⟨field, inside, -, rfl⟩
  · obtain ⟨content, described⟩ := (declared found held).description same field inside
    refine isSummed_fieldSymbol ?_ name place visibility
    rw [described]
    exact Declaration.trimEnd_fieldDescription? content
  · exact isSummed_fieldSymbol (read field inside).trimEnd_description name location visibility

theorem isSummed_of_mem_blockSymbols {record : Doc.Record} {block : Comment.Block}
    {declaration : Option Declaration} {lines : List Text} {file : Text} {classNames : List Text}
    {symbol : Symbol} (read : ∀ field ∈ record.fields, field.IsRead) (inside : block.IsIn lines)
    (declared : ∀ found ∈ declaration, found.IsIn lines)
    (member : symbol ∈ (blockSymbols record block declaration lines file classNames).1) :
    symbol.IsSummed := by
  obtain ⟨kind, name, within, isMethod, location, visibility, -, -, -, own | field⟩ :=
    mem_blockSymbols inside declared member
  · rw [own]
    exact Doc.isSummaryOf_firstLine (Text.trimEnd_trimEnd _)
  · exact isSummed_of_mem_fieldSymbols read declared field

theorem fields_resolvePlaceholder (current : Option Text) (record : Doc.Record) :
    (resolvePlaceholder current record).fields = record.fields := by
  unfold resolvePlaceholder
  split <;> rfl

theorem isSummed_of_mem_assemble {lines : List Text} {file : Text} {symbol : Symbol}
    (member : symbol ∈ (assemble lines file).1) : symbol.IsSummed := by
  obtain ⟨block, record, current, held, own⟩ := exists_of_mem_assembleRecords member
  obtain ⟨_, -, same⟩ := List.mem_map.mp held
  cases same
  refine isSummed_of_mem_blockSymbols ?_
    (isIn_of_mem_recordsOf _ held).1 isIn_of_declarationFor? own
  rw [fields_resolvePlaceholder]
  exact Doc.isRead_of_mem_fields

end Assembly

/-! ### Documentation taken over -/

/-- A text that is taken over comes with its summary. -/
theorem Inherit.isSummed_merge {symbol target : Symbol} (own : symbol.IsSummed)
    (other : target.IsSummed) : (merge symbol target).IsSummed := by
  rw [merge_eq]
  unfold Symbol.IsSummed
  -- One test decides about both, so a description never comes with the summary of another one.
  cases takesText symbol target with
  | true => exact other
  | false => exact own

/-- Every symbol of a file, with documentation taken over, has the first line of its description
that is not blank for a summary, and has none only when it has no description. -/
theorem summaries_are_first_lines {lines : List Text} {file : Text} {symbol : Symbol}
    (member : symbol ∈ inheritDocs (assemble lines file).1) :
    Doc.IsSummaryOf symbol.docs.summary symbol.docs.description ∧
      (symbol.docs.summary = [] ↔ symbol.docs.description = []) := by
  have sums : symbol.IsSummed :=
    Inherit.forall_mem_inheritDocs (fun _ _ => Inherit.isSummed_merge)
      (fun _ => Assembly.isSummed_of_mem_assemble) symbol member
  exact ⟨sums, sums.eq_nil_iff⟩

/-- An interface with a field that is described and one that is not, and a method that takes a text
over in which a form feed ends a line. -/
def formFeedLines : List Text :=
  ["--- @interface Door", "--- @field width number -- How wide.", "--- @field key Key", "",
    "---", "---   Opens.\x0c Slowly.", "--- @method open", "--- @within Gate", "",
    "--- @method lift", "--- @within Gate", "--- @inheritDoc Gate:open"]

theorem summaries_are_first_lines_formFeed :
    ((inheritDocs (assemble formFeedLines "Gate.luau").1).map fun symbol =>
        (symbol.qualified, symbol.docs.summary)) =
      [("Door", ""), ("Door.width", "How wide."), ("Door.key", ""), ("Gate:open", "Opens."),
        ("Gate:lift", "Opens.")].map
          (fun (qualified, summary) => (qualified.toList, summary.toList)) ∧
    ∃ symbol ∈ inheritDocs (assemble formFeedLines "Gate.luau").1,
      symbol.qualified = "Gate:lift" ∧ symbol.docs.description = "  Opens.\x0c Slowly." ∧
        Doc.IsSummaryOf symbol.docs.summary symbol.docs.description ∧ symbol.docs.summary ≠ [] := by
  have facts : ∃ inside : 4 < (inheritDocs (assemble formFeedLines "Gate.luau").1).length,
      let symbol := (inheritDocs (assemble formFeedLines "Gate.luau").1).get ⟨4, inside⟩
      symbol.qualified = "Gate:lift" ∧ symbol.docs.description = "  Opens.\x0c Slowly." := by
    decide +kernel
  obtain ⟨inside, named, described⟩ := facts
  obtain ⟨sums, empty⟩ := summaries_are_first_lines (List.get_mem _ ⟨4, inside⟩)
  have present : "  Opens.\x0c Slowly.".toList ≠ [] := by decide
  exact ⟨by decide +kernel, _, List.get_mem _ ⟨4, inside⟩, named, described, sums,
    mt empty.mp (described ▸ present)⟩

end LuauReference
