/-
This file proves that the two views of the extent of a table type agree. The search for table types
goes down the raw lines of a file and goes on behind each table that it finds, while the declaration
on a line is read from its code. What reads as a table type there reads as one in the raw line, and
both views take the end from the same reading of the table. So a declared table type is a range, or
it begins inside of an earlier one. The blocks that describe fields are followed through the reading
of a table: they stand between the head and the last line, and what stands there is not read as
documentation of the file.
-/

import LuauReference.Proofs.Declaration.Head
import LuauReference.Proofs.Declaration.Range
import LuauReference.Proofs.Declaration.Reader

namespace LuauReference

namespace Declaration

/-! ### Ranges -/

theorem lt_first_of_mem_tableRangesFrom {index : Nat} {lines : List Text} {range : Nat × Nat}
    (member : range ∈ tableRangesFrom index lines) : index < range.1 := by
  fun_induction tableRangesFrom index lines with
  | case1 index => cases member
  | case2 index line rest opens last inductionHypothesis =>
    rcases List.mem_cons.mp member with rfl | later
    · exact Nat.lt_succ_self index
    · have ordered : index ≤ last := le_table index line rest
      have bound := inductionHypothesis later
      omega
  | case3 index line rest other inductionHypothesis =>
    exact Nat.lt_of_succ_lt (inductionHypothesis member)

/-- Table types stand one behind the other. -/
theorem pairwise_tableRangesFrom (index : Nat) (lines : List Text) :
    (tableRangesFrom index lines).Pairwise fun range next => range.2 < next.1 := by
  fun_induction tableRangesFrom index lines with
  | case1 index => exact .nil
  | case2 index line rest opens last inductionHypothesis =>
    exact List.pairwise_cons.mpr
      ⟨fun next later => lt_first_of_mem_tableRangesFrom later, inductionHypothesis⟩
  | case3 index line rest other inductionHypothesis => exact inductionHypothesis

/-- A line that reads as the head of a table type begins a range, unless the search passes it by
inside of an earlier one. -/
theorem range_of_head {lines left rest : List Text} {start index : Nat} {line : Text}
    (place : lines.drop start = left) (here : lines.drop index = line :: rest)
    (behind : start ≤ index)
    (opens : (tableHead? line).isSome = true) :
    (index + 1, (table index line rest).2 + 1) ∈ tableRangesFrom start left ∨
      ∃ range ∈ tableRangesFrom start left, range.1 < index + 1 ∧ index + 1 ≤ range.2 := by
  have inside : index < lines.length := by
    have counted := Comment.length_of_drop here
    omega
  fun_induction tableRangesFrom start left with
  | case1 start =>
    have ended := List.drop_eq_nil_iff.mp place
    omega
  | case2 start first others opensFirst last inductionHypothesis =>
    have ordered : start ≤ last := le_table start first others
    rcases Nat.eq_or_lt_of_le behind with rfl | after
    · obtain ⟨rfl, rfl⟩ := List.cons.inj (place.symm.trans here)
      exact Or.inl List.mem_cons_self
    · by_cases covered : index ≤ last
      · exact Or.inr ⟨_, List.mem_cons_self, Nat.succ_lt_succ after, Nat.succ_le_succ covered⟩
      · have further : lines.drop (last + 1) = others.drop (last - start) := by
          rw [← Comment.drop_further place (last - start), Nat.add_sub_cancel' ordered]
        rcases inductionHypothesis further (by omega) with found | ⟨range, member, around⟩
        · exact Or.inl (List.mem_cons_of_mem _ found)
        · exact Or.inr ⟨range, List.mem_cons_of_mem _ member, around⟩
  | case3 start first others noHead inductionHypothesis =>
    refine inductionHypothesis (Comment.drop_further place 0) (Nat.lt_of_le_of_ne behind ?_)
    rintro rfl
    obtain ⟨rfl, -⟩ := List.cons.inj (place.symm.trans here)
    exact noHead opens

/-! ### Declared table types -/

/-- The code of a line is the front of the line. -/
theorem codeOf_isPrefix (line : Text) : codeOf line <+: line := by
  suffices general : ∀ quote, dropComment quote line <+: line from general none
  intro quote
  fun_induction dropComment quote line with
  | case1 quote c rest inductionHypothesis =>
    exact List.cons_prefix_cons.mpr ⟨rfl, List.cons_prefix_cons.mpr ⟨rfl, inductionHypothesis⟩⟩
  | case2 quote c rest noEscape inductionHypothesis =>
    exact List.cons_prefix_cons.mpr ⟨rfl, inductionHypothesis⟩
  | case3 rest => exact List.nil_prefix
  | case4 c rest noComment inductionHypothesis =>
    exact List.cons_prefix_cons.mpr ⟨rfl, inductionHypothesis⟩
  | case5 quote => exact List.nil_prefix

/-- What reads as a table type in the code of a line does so in the line. -/
theorem tableHead?_of_code {line name : Text}
    (found : tableHead? (Text.trimEnd (codeOf line)) = some name) :
    tableHead? line = some name := by
  obtain ⟨blanks, trimmed⟩ := Text.exists_dropEndWhile_append Text.isBlank (codeOf line)
  obtain ⟨comment, whole⟩ := codeOf_isPrefix line
  rw [← whole, trimmed]
  exact tableHead?_longer (tableHead?_longer found blanks) comment

/-- A table type that is declared on a line has its head in the raw line and ends where its table
does. -/
theorem table_of_declarationAt? {index last : Nat} {line name : Text} {rest : List Text}
    {fields : List TableField} {declaration : Declaration}
    (found : declarationAt? index line rest = some declaration)
    (shape : declaration.shape = .type name fields last) :
    tableHead? line = some name ∧ fields = (table index line rest).1 ∧
      last = (table index line rest).2 + 1 := by
  obtain ⟨shaped, read, rfl⟩ := Option.map_eq_some_iff.mp found
  dsimp only at shape
  subst shape
  revert read
  fun_cases shapeAt? index line rest with
  | case1 code signature read => rintro ⟨⟩
  | case2 code noSignature name head fields last read =>
    rintro ⟨⟩
    rw [read]
    exact ⟨tableHead?_of_code head, rfl, rfl⟩
  | case3 code noSignature noHead trimmed owner name read => rintro ⟨⟩
  | case4 code noSignature noHead trimmed noField =>
    intro read
    obtain ⟨name, -, other⟩ := Option.map_eq_some_iff.mp read
    cases other

/-! ### The documentation of fields -/

/-- The block that describes each field of a table, from the line with the given index on. A block
waits for the next field, whatever stands between them. -/
def describing (index : Nat) (depth : Int) (waiting : Option Comment.Block) (lines : List Text) :
    List (Option Comment.Block) :=
  match lines with
  | [] => []
  | line :: rest =>
    match Comment.blockAt? line rest with
    | some (content, further) =>
      describing (index + further + 1) depth (some ⟨index + 1, index + 1 + further, content⟩)
        (rest.drop further)
    | none =>
      if (Text.trim line).startsWith "--" then
        describing (index + 1) depth waiting rest
      else
        let code := codeOf line
        let inner := depth + braceBalance code
        match if depth == 1 then fieldParts? code else none with
        | some (_, type) =>
          let (_, final, further) := wholeType type inner rest
          if final ≤ 0 then
            [waiting]
          else
            waiting :: describing (index + further + 1) final none (rest.drop further)
        | none => if inner ≤ 0 then [] else describing (index + 1) inner waiting rest
termination_by lines.length
decreasing_by
  all_goals simp only [List.length_drop, List.length_cons]; omega

/-- The block that describes each field of the table type on a line. No block stands in a table on a
single line. -/
def fieldBlocks (index : Nat) (line : Text) (rest : List Text) : List (Option Comment.Block) :=
  match Text.cut? "\x7b" (codeOf line) with
  | none => []
  | some (_, head) =>
    let depth := 1 + braceBalance head
    if depth ≤ 0 then
      (inlineFields (index + 1) (beforeLastBrace head)).map fun _ => none
    else
      describing (index + 1) depth none rest

/-- Whether a block of a file stands behind the line with a number and in front of a field. -/
structure StandsBetween (lines : List Text) (start : Nat) (field : TableField)
    (block : Comment.Block) :
    Prop where
  inside : block.IsIn lines
  behind : start < block.firstLine
  before : ∃ number, field.line = some number ∧ block.lastLine < number

/-- Whether a field has the description that a block gives, or none, and the block stands where it
may. -/
structure IsDescribed (lines : List Text) (start : Nat) (field : TableField)
    (block : Option Comment.Block) : Prop where
  description : field.description = fieldDescription? (block.map Comment.Block.content)
  between : ∀ found ∈ block, StandsBetween lines start field found

/-- Whether the block that waits for a field, if one does, stands between two lines of a file. -/
def Waits (lines : List Text) (start index : Nat) (waiting : Option Comment.Block) : Prop :=
  ∀ block ∈ waiting, block.IsIn lines ∧ start < block.firstLine ∧ block.lastLine ≤ index

theorem Waits.none (lines : List Text) (start index : Nat) : Waits lines start index none := nofun

theorem Waits.later {lines : List Text} {start index later : Nat} {waiting : Option Comment.Block}
    (waits : Waits lines start index waiting) (after : index ≤ later) :
    Waits lines start later waiting := by
  intro block member
  obtain ⟨inside, behind, before⟩ := waits block member
  exact ⟨inside, behind, Nat.le_trans before after⟩

/-- The field on a line is described by the block that waits for it. -/
theorem Waits.isDescribed {lines : List Text} {start index : Nat} {waiting : Option Comment.Block}
    (waits : Waits lines start index waiting) (name : Text) (type : Option Text) :
    IsDescribed lines start
      ⟨name, type, fieldDescription? (waiting.map Comment.Block.content), some (index + 1)⟩
        waiting where
  description := rfl
  between := by
    intro block member
    obtain ⟨inside, behind, before⟩ := waits block member
    exact ⟨inside, behind, index + 1, rfl, Nat.lt_succ_of_le before⟩

theorem isDescribed_describing {lines left : List Text} {start index : Nat} (depth : Int)
    {waiting : Option Comment.Block} (place : lines.drop index = left) (behind : start ≤ index)
    (waits : Waits lines start index waiting) :
    List.Forall₂ (IsDescribed lines start)
      (tableBody index depth (waiting.map Comment.Block.content) left).1
      (describing index depth waiting left) := by
  fun_induction describing index depth waiting left with
  | case1 index depth waiting =>
    rw [tableBody]
    exact .nil
  | case2 index depth waiting line rest content further found inductionHypothesis =>
    rw [tableBody_of_block found]
    refine inductionHypothesis (Comment.drop_further place further) (by omega) ?_
    rintro block ⟨⟩
    exact ⟨Comment.isIn_of_blockAt? place found, by dsimp only; omega, by dsimp only; omega⟩
  | case3 index depth waiting line rest noBlock comment inductionHypothesis =>
    rw [tableBody_of_comment noBlock comment]
    exact inductionHypothesis (Comment.drop_further place 0) (by omega)
      (waits.later (Nat.le_succ index))
  | case4 index depth waiting line rest noBlock noComment code inner name type found whole final
      further typed closes =>
    rw [tableBody_of_lastField noBlock noComment found typed closes]
    exact .cons (waits.isDescribed _ _) .nil
  | case5 index depth waiting line rest noBlock noComment code inner name type found whole final
      further typed opened inductionHypothesis =>
    rw [tableBody_of_field noBlock noComment found typed opened]
    exact .cons (waits.isDescribed _ _)
      (inductionHypothesis (Comment.drop_further place further) (by omega) (.none lines start _))
  | case6 index depth waiting line rest noBlock noComment code inner noField closes =>
    rw [tableBody_of_end noBlock noComment noField closes]
    exact .nil
  | case7 index depth waiting line rest noBlock noComment code inner noField opened
      inductionHypothesis =>
    rw [tableBody_of_inner noBlock noComment noField opened]
    exact inductionHypothesis (Comment.drop_further place 0) (by omega)
      (waits.later (Nat.le_succ index))

/-- The fields of a table type have the descriptions that blocks between its head and them give. -/
theorem isDescribed_fieldBlocks {lines rest : List Text} {index : Nat} {line : Text}
    (place : lines.drop index = line :: rest) :
    List.Forall₂ (IsDescribed lines (index + 1)) (table index line rest).1
      (fieldBlocks index line rest) := by
  rw [table, fieldBlocks]
  cases Text.cut? "\x7b" (codeOf line) with
  | none => exact .nil
  | some sides =>
    dsimp only
    split
    · refine List.forall₂_map_right_iff.mpr (List.forall₂_same.mpr fun field member => ⟨?_, nofun⟩)
      obtain ⟨part, -, read⟩ := List.mem_filterMap.mp member
      obtain ⟨parts, -, rfl⟩ := Option.map_eq_some_iff.mp read
      rfl
    · exact isDescribed_describing _ (Comment.drop_further place 0) (Nat.le_refl _)
        (.none lines _ _)

/-! ### The last line -/

theorem line_le_of_mem_tableBody {index : Nat} {depth : Int} {waiting : Option (List Text)}
    {lines : List Text} (positive : 1 ≤ index) {field : TableField}
    (member : field ∈ (tableBody index depth waiting lines).1) :
    ∀ number ∈ field.line, number ≤ (tableBody index depth waiting lines).2 + 1 := by
  fun_induction tableBody index depth waiting lines with
  | case1 index depth waiting => cases member
  | case2 index depth waiting line rest content further found inductionHypothesis =>
    exact inductionHypothesis (by omega) member
  | case3 index depth waiting line rest noBlock comment inductionHypothesis =>
    exact inductionHypothesis (by omega) member
  | case4 index depth waiting line rest noBlock noComment code inner name type found whole final
      further typed own closes =>
    rintro number same
    rw [List.mem_singleton.mp member] at same
    cases same
    dsimp only
    omega
  | case5 index depth waiting line rest noBlock noComment code inner name type found whole final
      further typed own opened fields last tail inductionHypothesis =>
    rw [tail] at inductionHypothesis
    rcases List.mem_cons.mp member with rfl | later
    · have ordered :=
        le_tableBody (show 1 ≤ index + further + 1 by omega) final none (rest.drop further)
      rw [tail] at ordered
      rintro number ⟨⟩
      dsimp only at ordered ⊢
      omega
    · exact inductionHypothesis (by omega) later
  | case6 index depth waiting line rest noBlock noComment code inner noField closes => cases member
  | case7 index depth waiting line rest noBlock noComment code inner noField opened
      inductionHypothesis => exact inductionHypothesis (by omega) member

/-- No field of a table type stands behind its last line. -/
theorem line_le_of_mem_table {index : Nat} {line : Text} {rest : List Text} {field : TableField}
    (member : field ∈ (table index line rest).1) :
    ∀ number ∈ field.line, number ≤ (table index line rest).2 + 1 := by
  revert member
  unfold table
  split
  · nofun
  · next before head cut =>
    dsimp only
    split
    · intro member number same
      obtain ⟨part, -, read⟩ := List.mem_filterMap.mp member
      obtain ⟨parts, -, rfl⟩ := Option.map_eq_some_iff.mp read
      cases same
      exact Nat.le_refl _
    · exact line_le_of_mem_tableBody (Nat.le_add_left 1 index)

/-! ### Both views -/

/-- The blocks that describe the fields of the table type at an index of a file. -/
def fieldBlocksAt (lines : List Text) (index : Nat) : List (Option Comment.Block) :=
  match lines.drop index with
  | [] => []
  | line :: rest => fieldBlocks index line rest

/-- Whether a block describes a field of a table type between two lines, and is not read as
documentation of the file: a block that is read and shares a line with it holds the head of the
table type as well. -/
structure IsSpent (lines : List Text) (first last : Nat) (block : Comment.Block) : Prop where
  inside : block.IsIn lines
  behind : first < block.firstLine
  before : block.lastLine < last
  unread : block ∉ Assembly.readBlocks lines
  apart : ∀ other ∈ Assembly.readBlocks lines, ∀ number, block.covers number = true →
    other.covers number = true → other.covers first = true

/-- Whether the ranges of the table types of a file are what the declarations on its lines say. -/
structure AreExtents (lines : List Text) : Prop where
  inside : ∀ range ∈ tableRanges lines, 1 ≤ range.1 ∧ range.1 ≤ range.2 ∧ range.2 ≤ lines.length
  apart : (tableRanges lines).Pairwise fun range next => range.2 < next.1
  complete : ∀ index line, lines[index]? = some line → (tableHead? line).isSome = true →
    ∃ range ∈ tableRanges lines, range.1 ≤ index + 1 ∧ index + 1 ≤ range.2
  declared : ∀ index declaration name fields last, atIndex lines index = .ok (some declaration) →
    declaration.shape = .type name fields last →
      (index + 1, last) ∈ tableRanges lines ∨
        ∃ range ∈ tableRanges lines, range.1 < index + 1 ∧ index + 1 ≤ range.2
  spent : ∀ index declaration name fields last, atIndex lines index = .ok (some declaration) →
    declaration.shape = .type name fields last → (index + 1, last) ∈ tableRanges lines →
      List.Forall₂ (fun field described =>
        field.description = fieldDescription? (described.map Comment.Block.content) ∧
          ∀ block ∈ described, IsSpent lines (index + 1) last block) fields
            (fieldBlocksAt lines index)

theorem exists_line_of_atIndex {lines : List Text} {index : Nat} {declaration : Declaration}
    (found : atIndex lines index = .ok (some declaration)) :
    ∃ line rest, lines.drop index = line :: rest ∧
      declarationAt? index line rest = some declaration := by
  cases place : lines.drop index with
  | nil =>
    rw [atIndex, Comment.linesAt, place] at found
    cases found
  | cons line rest =>
    rw [atIndex_of_drop place] at found
    exact ⟨line, rest, rfl, Except.ok.inj found⟩

/-- What stands in a range behind its first line is not read as documentation of the file. -/
theorem isSpent_of_range {lines : List Text} {first last : Nat} {field : TableField}
    {block : Comment.Block}
    (range : (first, last) ∈ tableRanges lines) (bounded : ∀ number ∈ field.line, number ≤ last)
    (between : StandsBetween lines first field block) : IsSpent lines first last block := by
  obtain ⟨number, stands, before⟩ := between.before
  have upTo := bounded number stands
  have ordered := between.inside.ordered
  have behind := between.behind
  have apart : ∀ other ∈ Assembly.readBlocks lines, ∀ number, block.covers number = true →
      other.covers number = true → other.covers first = true := by
    intro other read number own shared
    have outside := (mem_readBlocks_iff.mp read).2 _ range
    simp only [Comment.Block.covers, Bool.and_eq_true, decide_eq_true_eq] at own shared ⊢
    omega
  refine ⟨between.inside, behind, by omega, fun read => ?_, apart⟩
  have held := apart block read block.firstLine (by simp [Comment.Block.covers, ordered])
    (by simp [Comment.Block.covers, ordered])
  rw [Comment.covers_eq_false_of_lt behind] at held
  cases held

/-- The two views of the extent of a table type agree. -/
theorem ranges_are_extents (lines : List Text) : AreExtents lines where
  inside := by
    intro range member
    have inside := isRangeIn_of_mem_tableRanges member
    exact ⟨inside.first, inside.ordered, inside.last⟩
  apart := pairwise_tableRangesFrom 0 lines
  complete := by
    intro index line stands opens
    obtain ⟨rest, place⟩ := Comment.exists_drop_of_getElem? stands
    rcases range_of_head List.drop_zero place (Nat.zero_le index) opens with own |
      ⟨range, member, around⟩
    · exact ⟨_, own, Nat.le_refl _, Nat.succ_le_succ (le_table index line rest)⟩
    · exact ⟨range, member, Nat.le_of_lt around.1, around.2⟩
  declared := by
    intro index declaration name fields last found shape
    obtain ⟨line, rest, place, read⟩ := exists_line_of_atIndex found
    obtain ⟨opens, -, rfl⟩ := table_of_declarationAt? read shape
    exact range_of_head List.drop_zero place (Nat.zero_le index) (by rw [opens]; rfl)
  spent := by
    intro index declaration name fields last found shape range
    obtain ⟨line, rest, place, read⟩ := exists_line_of_atIndex found
    obtain ⟨-, rfl, rfl⟩ := table_of_declarationAt? read shape
    have bounded := (List.forall₂_and_left _ _).mpr
      ⟨fun _ member => line_le_of_mem_table member, isDescribed_fieldBlocks place⟩
    rw [fieldBlocksAt, place]
    refine bounded.imp fun field described both => ⟨both.2.description, fun block member => ?_⟩
    exact isSpent_of_range range both.1 (both.2.between block member)

example : fieldBlocksAt
    ["type Door = \x7b", "  --- How wide.", "  width: number,", "  key: Key,", "\x7d"] 0 =
    [some ⟨2, 2, ["How wide."]⟩, none] := by decide +kernel

end Declaration

end LuauReference
