/-
This file proves that table types lie inside their file: the fields that are read stand on lines of
the file, the last line of a table is one too, and so the ranges of all tables can be looked at
again by their indices. No balance of braces is assumed. A table that is never closed ends with its
file.
-/

import LuauReference.Declaration.Table
import LuauReference.Proofs.Comment.Block

namespace LuauReference

theorem Text.ne_nil_of_identifier? {s name tail : Text}
    (found : Text.identifier? s = some (name, tail)) : name ≠ [] := by
  rw [Text.identifier?] at found
  unfold Text.run? at found
  split at found
  · cases found
  · split at found
    · cases found
      exact List.cons_ne_nil _ _
    · cases found

namespace Declaration

/-! ### Fields -/

theorem ne_nil_of_fieldParts? {line name type : Text}
    (found : fieldParts? line = some (name, type)) : name ≠ [] := by
  simp only [fieldParts?, Option.bind_eq_bind, Option.bind_eq_some_iff, Option.pure_def,
    Option.some.injEq, Prod.mk.injEq] at found
  obtain ⟨⟨other, tail⟩, identified, value, after, rest, line, rfl, same⟩ := found
  exact Text.ne_nil_of_identifier? identified

/-- Outside of braces a type ends with its line. -/
theorem wholeType_of_le (type : Text) {depth : Int} (outside : depth ≤ 1) (lines : List Text) :
    wholeType type depth lines = (type, depth, 0) := by
  cases lines with
  | nil => rfl
  | cons line rest => rw [wholeType, if_pos outside]

/-- A type takes no more lines than there are. -/
theorem further_le_of_wholeType (type : Text) (depth : Int) (lines : List Text) :
    (wholeType type depth lines).2.2 ≤ lines.length := by
  induction lines generalizing type depth with
  | nil => exact Nat.le_refl 0
  | cons line rest inductionHypothesis =>
    rw [wholeType]
    split
    · exact Nat.zero_le _
    · exact Nat.succ_le_succ (inductionHypothesis _ _)

/-- Whether a field has a name and stands on a line after the first of two numbers and up to the
second. -/
structure TableField.IsIn (start stop : Nat) (field : TableField) : Prop where
  name : field.name ≠ []
  line : ∃ number, field.line = some number ∧ start < number ∧ number ≤ stop

/-- Whether the fields of a table and its last line, given by its index, lie between two indices. -/
structure IsTableIn (start stop : Nat) (read : List TableField × Nat) : Prop where
  fields : ∀ field ∈ read.1, field.IsIn start stop
  first : start ≤ read.2 + 1
  last : read.2 + 1 ≤ stop

theorem TableField.IsIn.of_later {start later stop : Nat} {field : TableField}
    (inside : field.IsIn later stop) (after : start ≤ later) : field.IsIn start stop where
  name := inside.name
  line := by
    obtain ⟨number, same, above, below⟩ := inside.line
    exact ⟨number, same, Nat.lt_of_le_of_lt after above, below⟩

theorem IsTableIn.of_later {start later stop : Nat} {read : List TableField × Nat}
    (inside : IsTableIn later stop read) (after : start ≤ later) : IsTableIn start stop read where
  fields := fun field member => (inside.fields field member).of_later after
  first := Nat.le_trans after inside.first
  last := inside.last

theorem isTableIn_nil {start stop last : Nat} (first : start ≤ last + 1)
    (bounded : last + 1 ≤ stop) :
    IsTableIn start stop ([], last) :=
  ⟨List.forall_mem_nil _, first, bounded⟩

/-- A field in front of the fields of a table. -/
theorem IsTableIn.cons {start stop last : Nat} {field : TableField} {fields : List TableField}
    (head : field.IsIn start stop) (tail : IsTableIn start stop (fields, last)) :
    IsTableIn start stop (field :: fields, last) :=
  ⟨List.forall_mem_cons.mpr ⟨head, tail.fields⟩, tail.first, tail.last⟩

/-- A field that is read from a line stands on it. -/
theorem isIn_of_fieldParts? {code name value : Text} {index stop : Nat} (type : Option Text)
    (description : Option Text) (found : fieldParts? code = some (name, value))
    (bounded : index + 1 ≤ stop) :
    TableField.IsIn index stop ⟨name, type, description, some (index + 1)⟩ :=
  ⟨ne_nil_of_fieldParts? found, index + 1, rfl, Nat.lt_succ_self index, bounded⟩

/-! ### The next line of a table -/

section

variable {index : Nat} {depth : Int} {waiting : Option (List Text)} {line : Text} {rest : List Text}

/-- A block is passed over as a whole, and waits for a field. -/
theorem tableBody_of_block {content : List Text} {further : Nat}
    (found : Comment.blockAt? line rest = some (content, further)) :
    tableBody index depth waiting (line :: rest) =
      tableBody (index + further + 1) depth (some content) (rest.drop further) := by
  rw [tableBody, found]

variable (noBlock : Comment.blockAt? line rest = none)

include noBlock

theorem tableBody_of_comment (comment : (Text.trim line).startsWith "--" = true) :
    tableBody index depth waiting (line :: rest) = tableBody (index + 1) depth waiting rest := by
  rw [tableBody, noBlock]
  exact if_pos comment

variable (noComment : ¬ (Text.trim line).startsWith "--" = true)

include noComment

/-- A field closes the table that has no brace open behind its type. -/
theorem tableBody_of_lastField {name type whole : Text} {final : Int} {further : Nat}
    (parts : (if depth == 1 then fieldParts? (codeOf line) else none) = some (name, type))
    (typed : wholeType type (depth + braceBalance (codeOf line)) rest = (whole, final, further))
    (closes : final ≤ 0) :
    tableBody index depth waiting (line :: rest) =
      ([⟨name, Doc.nonEmpty? (trimType (final ≤ 0) whole), fieldDescription? waiting,
        some (index + 1)⟩],
        index + further) := by
  rw [tableBody, noBlock]
  dsimp only
  rw [if_neg noComment, parts]
  dsimp only
  rw [typed]
  exact if_pos closes

/-- Behind any other field the table goes on, and no block waits any more. -/
theorem tableBody_of_field {name type whole : Text} {final : Int} {further : Nat}
    (parts : (if depth == 1 then fieldParts? (codeOf line) else none) = some (name, type))
    (typed : wholeType type (depth + braceBalance (codeOf line)) rest = (whole, final, further))
    (opened : ¬ final ≤ 0) :
    tableBody index depth waiting (line :: rest) =
      let later := tableBody (index + further + 1) final none (rest.drop further)
      (⟨name, Doc.nonEmpty? (trimType (final ≤ 0) whole), fieldDescription? waiting,
        some (index + 1)⟩ ::
        later.1, later.2) := by
  rw [tableBody, noBlock]
  dsimp only
  rw [if_neg noComment, parts]
  dsimp only
  rw [typed]
  exact if_neg opened

variable (noField : (if depth == 1 then fieldParts? (codeOf line) else none) = none)

include noField

theorem tableBody_of_end (closes : depth + braceBalance (codeOf line) ≤ 0) :
    tableBody index depth waiting (line :: rest) = ([], index) := by
  rw [tableBody, noBlock]
  dsimp only
  rw [if_neg noComment, noField]
  exact if_pos closes

/-- A line without a field only changes the depth. -/
theorem tableBody_of_inner (opened : ¬ depth + braceBalance (codeOf line) ≤ 0) :
    tableBody index depth waiting (line :: rest) =
      tableBody (index + 1) (depth + braceBalance (codeOf line)) waiting rest := by
  rw [tableBody, noBlock]
  dsimp only
  rw [if_neg noComment, noField]
  exact if_neg opened

end

/-! ### Tables -/

theorem tableBody_isTableIn {index stop : Nat} (depth : Int) (waiting : Option (List Text))
    {lines : List Text} (positive : 1 ≤ index) (ends : index + lines.length = stop) :
    IsTableIn index stop (tableBody index depth waiting lines) := by
  -- The end of the lines stays where it is, while the index moves towards it.
  fun_induction tableBody index depth waiting lines with
  | case1 index depth waiting =>
    simp only [List.length_nil] at ends
    exact isTableIn_nil (by omega) (by omega)
  | case2 index depth waiting line rest content further found inductionHypothesis =>
    have bounded := Comment.further_le_of_blockAt? found
    simp only [List.length_cons, List.length_drop] at ends inductionHypothesis
    exact (inductionHypothesis (by omega) (by omega)).of_later (by omega)
  | case3 index depth waiting line rest noBlock comment inductionHypothesis =>
    simp only [List.length_cons] at ends
    exact (inductionHypothesis (by omega) (by omega)).of_later (by omega)
  | case4 index depth waiting line rest noBlock noComment code inner name type found whole final
      further typed field closes =>
    have bounded : further ≤ rest.length := by
      have counted := further_le_of_wholeType type inner rest
      rwa [typed] at counted
    simp only [List.length_cons] at ends
    have parts : fieldParts? code = some (name, type) := (Option.dite_none_right_eq_some.mp found).2
    exact (isTableIn_nil (by omega) (by omega)).cons
      (isIn_of_fieldParts? _ _ parts (by omega))
  | case5 index depth waiting line rest noBlock noComment code inner name type found whole final
      further typed field opened fields last tail inductionHypothesis =>
    have bounded : further ≤ rest.length := by
      have counted := further_le_of_wholeType type inner rest
      rwa [typed] at counted
    simp only [List.length_cons, List.length_drop, tail] at ends inductionHypothesis
    have parts : fieldParts? code = some (name, type) := (Option.dite_none_right_eq_some.mp found).2
    exact ((inductionHypothesis (by omega) (by omega)).of_later (by omega)).cons
      (isIn_of_fieldParts? _ _ parts (by omega))
  | case6 index depth waiting line rest noBlock noComment code inner noField closes =>
    simp only [List.length_cons] at ends
    exact isTableIn_nil (by omega) (by omega)
  | case7 index depth waiting line rest noBlock noComment code inner noField opened
      inductionHypothesis =>
    simp only [List.length_cons] at ends
    exact (inductionHypothesis (by omega) (by omega)).of_later (by omega)

theorem inlineFields_isIn {index stop : Nat} (inner : Text) (bounded : index + 1 ≤ stop) :
    ∀ field ∈ inlineFields (index + 1) inner, field.IsIn index stop := by
  intro field member
  obtain ⟨part, inside, read⟩ := List.mem_filterMap.mp member
  obtain ⟨⟨name, value⟩, parts, rfl⟩ := Option.map_eq_some_iff.mp read
  exact isIn_of_fieldParts? _ _ parts bounded

/-- The table that opens on a line lies between that line and the end of the file. -/
theorem table_isTableIn {lines rest : List Text} {index : Nat} {line : Text}
    (place : lines.drop index = line :: rest) :
    IsTableIn index lines.length (table index line rest) ∧ index ≤ (table index line rest).2 := by
  have counted := Comment.length_of_drop place
  unfold table
  split
  · exact ⟨isTableIn_nil (by omega) (by omega), Nat.le_refl index⟩
  · next before head cut =>
    dsimp only
    split
    · exact ⟨⟨inlineFields_isIn _ (by omega), Nat.le_succ index, by dsimp only; omega⟩,
        Nat.le_refl index⟩
    · have body : IsTableIn (index + 1) lines.length
          (tableBody (index + 1) (1 + braceBalance head) none rest) :=
        tableBody_isTableIn _ none (Nat.le_add_left 1 index) (by omega)
      exact ⟨body.of_later (Nat.le_succ index), Nat.le_of_succ_le_succ body.first⟩

/-! ### Ranges -/

/-- Whether a range of lines is that of a table type in a file. -/
structure IsRangeIn (lines : List Text) (range : Nat × Nat) : Prop where
  first : 1 ≤ range.1
  ordered : range.1 ≤ range.2
  last : range.2 ≤ lines.length
  found : ∃ fields, tableAtIndex lines (range.1 - 1) = .ok (fields, range.2 - 1)

theorem tableAtIndex_of_drop {lines rest : List Text} {index : Nat} {line : Text}
    (place : lines.drop index = line :: rest) :
    tableAtIndex lines index = .ok (table index line rest) := by
  rw [tableAtIndex, Comment.linesAt_of_drop place]
  rfl

/-- Reading a table at any index of a file returns, and its last line is in the file. -/
theorem tableAtIndex_returns {lines : List Text} {index : Nat} (inside : index < lines.length) :
    ∃ fields last, tableAtIndex lines index = .ok (fields, last) ∧ index ≤ last ∧
      last < lines.length := by
  obtain ⟨line, rest, place⟩ := Comment.exists_drop inside
  obtain ⟨table, ordered⟩ := table_isTableIn place
  exact ⟨_, _, tableAtIndex_of_drop place, ordered, table.last⟩

theorem isRangeIn_of_mem_tableRangesFrom {lines left : List Text} {index : Nat} {range : Nat × Nat}
    (place : lines.drop index = left) (member : range ∈ tableRangesFrom index left) :
    IsRangeIn lines range := by
  fun_induction tableRangesFrom index left with
  | case1 index => cases member
  | case2 index line rest opens last inductionHypothesis =>
    obtain ⟨inside, ordered⟩ := table_isTableIn place
    rcases List.mem_cons.mp member with rfl | later
    · exact ⟨Nat.le_add_left 1 index, Nat.succ_le_succ ordered, inside.last, _,
        tableAtIndex_of_drop place⟩
    · have left : lines.drop (last + 1) = rest.drop (last - index) := by
        rw [← Comment.drop_further place (last - index), Nat.add_sub_cancel' ordered]
      exact inductionHypothesis left later
  | case3 index line rest other inductionHypothesis =>
    exact inductionHypothesis (Comment.drop_further place 0) member

/-- Every range of a table type lies in its file. -/
theorem isRangeIn_of_mem_tableRanges {lines : List Text} {range : Nat × Nat}
    (member : range ∈ tableRanges lines) : IsRangeIn lines range :=
  isRangeIn_of_mem_tableRangesFrom List.drop_zero member

end Declaration

end LuauReference
