/-
This file treats the indentation that the lines of a comment share. It is the least of the
indentations of the lines that are not blank, so it does not depend on the order of the lines, and
it grows with every line when all of them are moved to the right. What is taken away with it is
never more than blanks.
-/

import LuauReference.Comment.Block
import LuauReference.Proofs.Text.Blank

namespace LuauReference

namespace Text

/-! ### Indentation of one line -/

theorem isBlank_of_isIndent {c : Char} (drawn : c = ' ' ∨ c = '\t') : isBlank c = true := by
  rcases drawn with rfl | rfl <;> decide

theorem isBlankText_of_isIndent {s : Text} (drawn : ∀ c ∈ s, c = ' ' ∨ c = '\t') :
    isBlankText s = true :=
  List.all_eq_true.mpr fun c member => isBlank_of_isIndent (drawn c member)

theorem mem_indent {line : Text} : ∀ c ∈ indent line, c = ' ' ∨ c = '\t' := by
  intro c member
  have drawn := List.mem_takeWhile_imp member
  rwa [Bool.or_eq_true, beq_iff_eq, beq_iff_eq] at drawn

theorem indent_append_dropIndent (line : Text) : indent line ++ dropIndent line = line :=
  List.takeWhile_append_dropWhile

theorem trim_dropIndent (line : Text) : trim (dropIndent line) = trim line := by
  rw [← trim_append_left (isBlankText_of_isIndent mem_indent) (dropIndent line),
    indent_append_dropIndent]

theorem indent_append {pad : Text} (drawn : ∀ c ∈ pad, c = ' ' ∨ c = '\t') (line : Text) :
    indent (pad ++ line) = pad ++ indent line := by
  refine List.takeWhile_append_of_pos fun c member => ?_
  rw [Bool.or_eq_true, beq_iff_eq, beq_iff_eq]
  exact drawn c member

theorem isBlankText_append {pad : Text} (blank : isBlankText pad = true) (line : Text) :
    isBlankText (pad ++ line) = isBlankText line := by
  rw [isBlankText, List.all_append, ← isBlankText, blank, Bool.true_and, isBlankText]

theorem isBlankText_drop {line : Text} (blank : isBlankText line = true) (width : Nat) :
    isBlankText (line.drop width) = true :=
  List.all_eq_true.mpr fun c member => isBlank_of_mem blank c (List.mem_of_mem_drop member)

/-- Taking away no more than the indentation of a line leaves its trimmed text as it is. -/
theorem trim_drop {line : Text} {width : Nat} (within : width ≤ (indent line).length) :
    trim (line.drop width) = trim line := by
  have front : line.take width <+: indent line :=
    List.prefix_of_prefix_length_le (List.take_prefix width line) (List.takeWhile_prefix _)
      ((List.length_take_le width line).trans within)
  have blank : isBlankText (line.take width) = true :=
    isBlankText_of_isIndent fun c member => mem_indent c (front.subset member)
  rw [← trim_append_left blank (line.drop width), List.take_append_drop]

end Text

namespace Comment

/-! ### The indentation that lines share -/

variable {lines : List Text}

/-- The indentations of the lines that are not blank. -/
def indentations (lines : List Text) : List Nat :=
  (lines.filter (!Text.isBlankText ·)).map fun line => (Text.indent line).length

theorem mem_indentations {width : Nat} : width ∈ indentations lines ↔
    ∃ line ∈ lines, Text.isBlankText line = false ∧ (Text.indent line).length = width := by
  simp only [indentations, List.mem_map, List.mem_filter, Bool.not_eq_true', and_assoc]

theorem sharedIndent_eq {width : Nat} (reached : width ∈ indentations lines)
    (least : ∀ other ∈ indentations lines, width ≤ other) : sharedIndent lines = width := by
  have found : (indentations lines).min? = some width := List.min?_eq_some_iff.mpr ⟨reached, least⟩
  exact congrArg (Option.getD · 0) found

/-- The shared indentation is that of some line, and no line has less. -/
theorem sharedIndent_spec (solid : ∃ line ∈ lines, Text.isBlankText line = false) :
    sharedIndent lines ∈ indentations lines ∧
      ∀ other ∈ indentations lines, sharedIndent lines ≤ other := by
  obtain ⟨line, member, unblank⟩ := solid
  have present : indentations lines ≠ [] :=
    List.ne_nil_of_mem (mem_indentations.mpr ⟨line, member, unblank, rfl⟩)
  obtain ⟨width, found⟩ := Option.ne_none_iff_exists'.mp (mt List.min?_eq_none_iff.mp present)
  obtain ⟨reached, least⟩ := List.min?_eq_some_iff.mp found
  rw [sharedIndent_eq reached least]
  exact ⟨reached, least⟩

theorem sharedIndent_of_perm {others : List Text} (perm : others.Perm lines) :
    sharedIndent others = sharedIndent lines := by
  have moved : (indentations others).Perm (indentations lines) := (perm.filter _).map _
  have same : (indentations others).min? = (indentations lines).min? :=
    Option.ext fun width => by simp only [List.min?_eq_some_iff, moved.mem_iff]
  exact congrArg (Option.getD · 0) same

/-- Taking the shared indentation away leaves the trimmed text of each line as it is. -/
theorem trim_drop_sharedIndent {line : Text} (member : line ∈ lines) :
    Text.trim (line.drop (sharedIndent lines)) = Text.trim line := by
  cases solid : Text.isBlankText line with
  | true =>
    rw [Text.trim_of_isBlankText solid, Text.trim_of_isBlankText (Text.isBlankText_drop solid _)]
  | false =>
    exact Text.trim_drop <| (sharedIndent_spec ⟨line, member, solid⟩).2 _ <|
      mem_indentations.mpr ⟨line, member, solid, rfl⟩

/-! ### Lines that are moved to the right -/

/-- Lines behind one indentation lose it with their own, and blank lines after them do not
matter. -/
theorem dedent_padded {pad : Text} (drawn : ∀ c ∈ pad, c = ' ' ∨ c = '\t') {tail : List Text}
    (blank : ∀ line ∈ tail, Text.isBlankText line = true)
    (solid : ∃ line ∈ lines, Text.isBlankText line = false) :
    dedent (lines.map (pad ++ ·) ++ tail) =
      dedent lines ++ tail.map (List.drop (pad.length + sharedIndent lines)) := by
  have padBlank := Text.isBlankText_of_isIndent drawn
  have length_indent (line : Text) :
      (Text.indent (pad ++ line)).length = pad.length + (Text.indent line).length := by
    rw [Text.indent_append drawn, List.length_append]
  have width : sharedIndent (lines.map (pad ++ ·) ++ tail) = pad.length + sharedIndent lines := by
    obtain ⟨reached, least⟩ := sharedIndent_spec solid
    obtain ⟨line, member, unblank, same⟩ := mem_indentations.mp reached
    refine sharedIndent_eq (mem_indentations.mpr ⟨pad ++ line, ?_, ?_, ?_⟩) fun other inside => ?_
    · exact List.mem_append_left _ (List.mem_map_of_mem member)
    · rw [Text.isBlankText_append padBlank, unblank]
    · rw [length_indent, same]
    · obtain ⟨further, stands, unblank, rfl⟩ := mem_indentations.mp inside
      rcases List.mem_append.mp stands with padded | behind
      · obtain ⟨line, member, rfl⟩ := List.mem_map.mp padded
        rw [Text.isBlankText_append padBlank] at unblank
        rw [length_indent]
        exact Nat.add_le_add_left (least _ (mem_indentations.mpr ⟨line, member, unblank, rfl⟩)) _
      · cases unblank.symm.trans (blank further behind)
  rw [dedent, width, List.map_append, List.map_map, dedent]
  refine congrArg (· ++ _) (List.map_congr_left fun line _ => ?_)
  exact List.drop_length_add_append _

end Comment

end LuauReference
