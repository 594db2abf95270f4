/-
This file proves that table types hide documentation only when they are code. The search for table
types goes down all lines of a file and does not know which of them are documentation, so what is
written in a long comment can open a table type or shift the depth of braces in one. Where the inner
lines of comments do neither, the search finds the same lines in the file as in its code alone, with
the documentation blanked out: a table goes over a block as a whole or not at all, since only a line
of code changes the depth.
-/

import LuauReference.Proofs.Comment.Blanked
import LuauReference.Proofs.Declaration.Line
import LuauReference.Proofs.Declaration.Nesting
import LuauReference.Proofs.Declaration.Table
import LuauReference.Proofs.Symbol.Precedence

namespace LuauReference

namespace Declaration

/-! ### Lines of documentation as code -/

/-- The line that begins a block begins with a comment. -/
theorem exists_comment_of_begins {line : Text} (begins : Comment.Begins line) :
    ∃ rest, Text.trimStart line = '-' :: '-' :: rest := by
  rcases begins with marked | opens
  · rw [Text.startsWith_trim (by decide)] at marked
    obtain ⟨rest, whole⟩ := Text.startsWith_iff.mp marked
    exact ⟨_, whole⟩
  · rw [Text.startsWith_trim (by decide)] at opens
    obtain ⟨rest, whole⟩ := Text.startsWith_iff.mp opens
    exact ⟨_, whole⟩

theorem braceBalance_of_begins {line : Text} (begins : Comment.Begins line) :
    braceBalance (codeOf line) = 0 := by
  obtain ⟨rest, comment⟩ := exists_comment_of_begins begins
  exact braceBalance_of_isBlankText (isBlankText_codeOf comment)

theorem tableHead?_of_begins {line : Text} (begins : Comment.Begins line) :
    tableHead? line = none := by
  obtain ⟨rest, comment⟩ := exists_comment_of_begins begins
  rw [tableHead?, comment]
  rfl

/-! ### Types over several lines -/

/-- Inside of braces a type takes the next line as well. -/
theorem wholeType_cons (type : Text) {depth : Int} (inside : 1 < depth) (line : Text)
    (rest : List Text) :
    let whole := wholeType (type ++ ' ' :: Text.trim (codeOf line))
      (depth + braceBalance (codeOf line)) rest
    wholeType type depth (line :: rest) = (whole.1, whole.2.1, whole.2.2 + 1) := by
  rw [wholeType, if_neg (by omega)]

/-- Where a type ends does not depend on what was read of it. -/
theorem wholeType_snd (type other : Text) (depth : Int) (lines : List Text) :
    (wholeType type depth lines).2 = (wholeType other depth lines).2 := by
  induction lines generalizing type other depth with
  | nil => rfl
  | cons line rest inductionHypothesis =>
    by_cases inside : 1 < depth
    · rw [wholeType_cons type inside, wholeType_cons other inside,
        inductionHypothesis _ (other ++ ' ' :: Text.trim (codeOf line))]
    · rw [wholeType_of_le type (by omega), wholeType_of_le other (by omega)]

/-- A type goes on over lines that do not change the depth. -/
theorem wholeType_append {front : List Text}
    (level : ∀ line ∈ front, braceBalance (codeOf line) = 0) (type : Text) {depth : Int}
    (inside : 1 < depth) (lines : List Text) :
    (wholeType type depth (front ++ lines)).2 =
      ((wholeType type depth lines).2.1, (wholeType type depth lines).2.2 + front.length) := by
  induction front generalizing type with
  | nil => rfl
  | cons line front inductionHypothesis =>
    obtain ⟨first, others⟩ := List.forall_mem_cons.mp level
    rw [List.cons_append, wholeType_cons type inside, first, Int.add_zero,
      inductionHypothesis others, wholeType_snd _ type, List.length_cons, Nat.add_assoc]

/-- Whether the inner lines of the blocks of a file leave the depth of braces as it is. -/
def IsLevel (lines : List Text) : Prop :=
  ∀ line ∈ Comment.innerLines lines, braceBalance (codeOf line) = 0

instance (lines : List Text) : Decidable (IsLevel lines) :=
  inferInstanceAs (Decidable (∀ line ∈ Comment.innerLines lines, _))

theorem IsLevel.behind {lines : List Text} (level : IsLevel lines) {count : Nat}
    (between : Comment.IsBetween lines count) : IsLevel (lines.drop count) :=
  fun line member => level line (between.inner member)

theorem IsLevel.block {line : Text} {rest content : List Text} {further : Nat}
    (level : IsLevel (line :: rest))
    (found : Comment.blockAt? line rest = some (content, further)) :
    ∀ inner ∈ line :: rest.take further, braceBalance (codeOf inner) = 0 := by
  refine List.forall_mem_cons.mpr ⟨braceBalance_of_begins (Comment.begins_of_blockAt? found), ?_⟩
  intro inner member
  refine level inner ?_
  rw [Comment.innerLines_of_block found]
  exact List.mem_append_left _ member

/-- A type goes on over a block as a whole. -/
theorem wholeType_block {line : Text} {rest content : List Text} {further : Nat}
    (level : IsLevel (line :: rest)) (found : Comment.blockAt? line rest = some (content, further))
    (type : Text) {depth : Int} (inside : 1 < depth) :
    (wholeType type depth (line :: rest)).2 =
      ((wholeType type depth (rest.drop further)).2.1,
        (wholeType type depth (rest.drop further)).2.2 + (further + 1)) := by
  conv_lhs => rw [← Comment.block_append line rest further]
  rw [wholeType_append (level.block found) type inside, Comment.length_block found]

theorem braceBalance_nil : braceBalance (codeOf []) = 0 := rfl

/-- A type goes on over empty lines. -/
theorem wholeType_replicate (count : Nat) (type : Text) {depth : Int} (inside : 1 < depth)
    (lines : List Text) :
    (wholeType type depth (List.replicate count [] ++ lines)).2 =
      ((wholeType type depth lines).2.1, (wholeType type depth lines).2.2 + count) := by
  have level : ∀ blank ∈ List.replicate count ([] : Text), braceBalance (codeOf blank) = 0 :=
    fun blank member => by rw [List.eq_of_mem_replicate member, braceBalance_nil]
  rw [wholeType_append level type inside, List.length_replicate]

/-- A type takes the same lines of a file and of its code, and does not end inside of a block. -/
theorem wholeType_blanked {lines : List Text} (level : IsLevel lines) (type other : Text)
    (depth : Int) :
    (wholeType type depth lines).2 = (wholeType other depth (Comment.blanked lines)).2 ∧
      Comment.IsBetween lines (wholeType type depth lines).2.2 := by
  fun_induction Comment.blanked lines generalizing type other depth with
  | case1 => exact ⟨rfl, .zero _⟩
  | case2 line rest content further found inductionHypothesis =>
    by_cases inside : 1 < depth
    · have between := Comment.IsBetween.block found
      obtain ⟨same, later⟩ := inductionHypothesis (level.behind between) type other depth
      rw [wholeType_block level found type inside, wholeType_replicate (further + 1) other inside,
        ← same]
      exact ⟨rfl, Nat.add_comm _ (further + 1) ▸ between.trans later⟩
    · rw [wholeType_of_le type (by omega), wholeType_of_le other (by omega)]
      exact ⟨rfl, .zero _⟩
  | case3 line rest nothing inductionHypothesis =>
    by_cases inside : 1 < depth
    · have between := Comment.IsBetween.code nothing
      obtain ⟨same, later⟩ := inductionHypothesis (level.behind between)
        (type ++ ' ' :: Text.trim (codeOf line)) (other ++ ' ' :: Text.trim (codeOf line))
        (depth + braceBalance (codeOf line))
      rw [wholeType_cons type inside, wholeType_cons other inside, ← same]
      exact ⟨rfl, Nat.add_comm _ 1 ▸ between.trans later⟩
    · rw [wholeType_of_le type (by omega), wholeType_of_le other (by omega)]
      exact ⟨rfl, .zero _⟩

/-! ### Tables -/

/-- Behind the first line of a field its type takes the same lines of a file and of its code. -/
theorem wholeType_blanked_of_eq {line : Text} {rest : List Text} {type whole : Text}
    {inner final : Int} {further : Nat} (code : Comment.blockAt? line rest = none)
    (level : IsLevel (line :: rest)) (typed : wholeType type inner rest = (whole, final, further)) :
    (∃ other, wholeType type inner (Comment.blanked rest) = (other, final, further)) ∧
      Comment.IsBetween (line :: rest) (1 + further) := by
  have between := Comment.IsBetween.code code
  have levelRest : IsLevel rest := level.behind between
  obtain ⟨same, later⟩ := wholeType_blanked levelRest type type inner
  rw [typed] at same later
  exact ⟨⟨_, Prod.ext rfl same.symm⟩, between.trans later⟩

/-- Inside of a table empty lines are passed over. -/
theorem tableBody_replicate (index count : Nat) {depth : Int} (deep : 1 ≤ depth)
    (waiting : Option (List Text)) (lines : List Text) :
    tableBody index depth waiting (List.replicate count [] ++ lines) =
      tableBody (index + count) depth waiting lines := by
  induction count generalizing index with
  | zero => rfl
  | succ count inductionHypothesis =>
    have code : Comment.blockAt? [] (List.replicate count [] ++ lines) = none := rfl
    have comment : ¬ (Text.trim []).startsWith "--" = true := by decide
    have field : (if depth == 1 then fieldParts? (codeOf []) else none) = none := by
      split <;> rfl
    have opened : ¬ depth + braceBalance (codeOf []) ≤ 0 := by
      rw [braceBalance_nil]
      omega
    rw [List.replicate_succ, List.cons_append, tableBody_of_inner code comment field opened,
      braceBalance_nil, Int.add_zero, inductionHypothesis, Nat.add_right_comm, Nat.add_assoc]

theorem le_tableBody {index : Nat} (positive : 1 ≤ index) (depth : Int)
    (waiting : Option (List Text)) (lines : List Text) :
    index ≤ (tableBody index depth waiting lines).2 + 1 :=
  (tableBody_isTableIn depth waiting positive rfl).first

/-- What ends between blocks behind a cut between blocks does so in the whole. -/
theorem isBetween_behind {lines : List Text} {index count last : Nat}
    (front : Comment.IsBetween lines count) (ordered : index + count ≤ last + 1)
    (back : Comment.IsBetween (lines.drop count) (last + 1 - (index + count))) :
    Comment.IsBetween lines (last + 1 - index) := by
  rw [show last + 1 - index = count + (last + 1 - (index + count)) by omega]
  exact front.trans back

/-- A table takes the same lines of a file and of its code, and does not end inside of a block. -/
theorem tableBody_blanked {index : Nat} {depth : Int} (waiting other : Option (List Text))
    {lines : List Text} (positive : 1 ≤ index) (deep : 1 ≤ depth) (level : IsLevel lines) :
    (tableBody index depth waiting lines).2 =
        (tableBody index depth other (Comment.blanked lines)).2 ∧
      Comment.IsBetween lines ((tableBody index depth waiting lines).2 + 1 - index) := by
  fun_induction tableBody index depth waiting lines generalizing other with
  | case1 index depth waiting =>
    rw [Comment.blanked, tableBody]
    refine ⟨rfl, ?_⟩
    rw [show index - 1 + 1 - index = 0 by omega]
    exact .zero []
  | case2 index depth waiting line rest content further found inductionHypothesis =>
    have between := Comment.IsBetween.block found
    obtain ⟨same, later⟩ := inductionHypothesis other (by omega) deep (level.behind between)
    rw [Comment.blanked_of_block found, tableBody_replicate index (further + 1) deep]
    exact ⟨same, isBetween_behind between (le_tableBody (by omega) _ _ _) later⟩
  | case3 index depth waiting line rest noBlock comment inductionHypothesis =>
    have between := Comment.IsBetween.code noBlock
    obtain ⟨same, later⟩ := inductionHypothesis other (by omega) deep (level.behind between)
    rw [Comment.blanked_of_code noBlock,
      tableBody_of_comment (Comment.blockAt?_of_code noBlock _) comment]
    exact ⟨same, isBetween_behind between (le_tableBody (by omega) _ _ _) later⟩
  | case4 index depth waiting line rest noBlock noComment code inner name type found whole final
      further typed field closes =>
    obtain ⟨⟨otherWhole, otherTyped⟩, between⟩ := wholeType_blanked_of_eq noBlock level typed
    rw [Comment.blanked_of_code noBlock,
      tableBody_of_lastField (Comment.blockAt?_of_code noBlock _) noComment found otherTyped closes,
      show index + further + 1 - index = 1 + further by omega]
    exact ⟨rfl, between⟩
  | case5 index depth waiting line rest noBlock noComment code inner name type found whole final
      further typed field opened fields last tail inductionHypothesis =>
    obtain ⟨⟨otherWhole, otherTyped⟩, between⟩ := wholeType_blanked_of_eq noBlock level typed
    have shifted : (line :: rest).drop (1 + further) = rest.drop further := by
      rw [Nat.add_comm, List.drop_succ_cons]
    have code := between.blanked
    rw [shifted, Comment.blanked_of_code noBlock, Nat.add_comm, List.drop_succ_cons] at code
    obtain ⟨same, later⟩ := inductionHypothesis none (by omega) (by omega)
      (shifted ▸ level.behind between)
    have ordered :=
      le_tableBody (show 1 ≤ index + further + 1 by omega) final none (rest.drop further)
    rw [tail] at same later ordered
    rw [Comment.blanked_of_code noBlock,
      tableBody_of_field (Comment.blockAt?_of_code noBlock _) noComment found otherTyped opened,
      ← code]
    refine ⟨same, isBetween_behind between (by omega) ?_⟩
    rw [shifted, show index + (1 + further) = index + further + 1 by omega]
    exact later
  | case6 index depth waiting line rest noBlock noComment code inner noField closes =>
    rw [Comment.blanked_of_code noBlock,
      tableBody_of_end (Comment.blockAt?_of_code noBlock _) noComment noField closes,
      Nat.add_sub_cancel_left]
    exact ⟨rfl, .code noBlock⟩
  | case7 index depth waiting line rest noBlock noComment code inner noField opened
      inductionHypothesis =>
    have between := Comment.IsBetween.code noBlock
    obtain ⟨same, later⟩ := inductionHypothesis other (by omega) (by omega) (level.behind between)
    rw [Comment.blanked_of_code noBlock,
      tableBody_of_inner (Comment.blockAt?_of_code noBlock _) noComment noField opened]
    exact ⟨same, isBetween_behind between (le_tableBody (by omega) _ _ _) later⟩

theorem le_table (index : Nat) (line : Text) (rest : List Text) :
    index ≤ (table index line rest).2 := by
  unfold table
  split
  · exact Nat.le_refl index
  · dsimp only
    split
    · exact Nat.le_refl index
    · exact Nat.le_of_succ_le_succ (le_tableBody (Nat.le_add_left 1 index) _ _ _)

theorem table_blanked {line : Text} {rest : List Text} (code : Comment.blockAt? line rest = none)
    (level : IsLevel (line :: rest)) (index : Nat) :
    (table index line (Comment.blanked rest)).2 = (table index line rest).2 ∧
      Comment.IsBetween (line :: rest) ((table index line rest).2 + 1 - index) := by
  have between := Comment.IsBetween.code code
  unfold table
  split
  · rw [Nat.add_sub_cancel_left]
    exact ⟨rfl, between⟩
  · next before head cut =>
    dsimp only
    split
    · rw [Nat.add_sub_cancel_left]
      exact ⟨rfl, between⟩
    · have levelRest : IsLevel rest := level.behind between
      obtain ⟨same, later⟩ := tableBody_blanked none none (Nat.le_add_left 1 index)
        (by omega : 1 ≤ 1 + braceBalance head) levelRest
      exact ⟨same.symm,
        isBetween_behind between (le_tableBody (Nat.le_add_left 1 index) _ _ _) later⟩

/-! ### Ranges -/

/-- Whether no inner line of the blocks of a file reads as the head of a table type. -/
def IsHeadless (lines : List Text) : Prop :=
  ∀ line ∈ Comment.innerLines lines, tableHead? line = none

instance (lines : List Text) : Decidable (IsHeadless lines) :=
  inferInstanceAs (Decidable (∀ line ∈ Comment.innerLines lines, _))

theorem IsHeadless.behind {lines : List Text} (headless : IsHeadless lines) {count : Nat}
    (between : Comment.IsBetween lines count) : IsHeadless (lines.drop count) :=
  fun line member => headless line (between.inner member)

theorem IsHeadless.block {line : Text} {rest content : List Text} {further : Nat}
    (headless : IsHeadless (line :: rest))
    (found : Comment.blockAt? line rest = some (content, further)) :
    ∀ inner ∈ line :: rest.take further, tableHead? inner = none := by
  refine List.forall_mem_cons.mpr ⟨tableHead?_of_begins (Comment.begins_of_blockAt? found), ?_⟩
  intro inner member
  refine headless inner ?_
  rw [Comment.innerLines_of_block found]
  exact List.mem_append_left _ member

/-- No table type is found in lines that read as no head of one. -/
theorem tableRangesFrom_of_headless {front : List Text}
    (headless : ∀ line ∈ front, tableHead? line = none)
    (index : Nat) (lines : List Text) :
    tableRangesFrom index (front ++ lines) = tableRangesFrom (index + front.length) lines := by
  induction front generalizing index with
  | nil => rfl
  | cons line front inductionHypothesis =>
    obtain ⟨first, others⟩ := List.forall_mem_cons.mp headless
    rw [List.cons_append, tableRangesFrom, first, Option.isSome_none, if_neg Bool.false_ne_true,
      inductionHypothesis others, List.length_cons, Nat.add_right_comm, Nat.add_assoc]

/-- No table type is found in a block. -/
theorem tableRangesFrom_block {line : Text} {rest content : List Text} {further : Nat}
    (headless : IsHeadless (line :: rest))
    (found : Comment.blockAt? line rest = some (content, further)) (index : Nat) :
    tableRangesFrom index (line :: rest) = tableRangesFrom (index + (further + 1))
      (rest.drop further) := by
  conv_lhs => rw [← Comment.block_append line rest further]
  rw [tableRangesFrom_of_headless (headless.block found), Comment.length_block found]

/-- No table type is found in empty lines. -/
theorem tableRangesFrom_replicate (index count : Nat) (lines : List Text) :
    tableRangesFrom index (List.replicate count [] ++ lines) = tableRangesFrom
      (index + count) lines := by
  have empty : ∀ blank ∈ List.replicate count ([] : Text), tableHead? blank = none :=
    fun blank member => List.eq_of_mem_replicate member ▸ rfl
  rw [tableRangesFrom_of_headless empty, List.length_replicate]

theorem tableRangesFrom_blanked {lines : List Text} (headless : IsHeadless lines)
    (level : IsLevel lines) (index : Nat) :
    tableRangesFrom index (Comment.blanked lines) = tableRangesFrom index lines := by
  -- A table may take any number of lines, so the hypothesis is about all shorter lists.
  induction counted : lines.length using Nat.strong_induction_on generalizing lines index with
  | _ length inductionHypothesis =>
    subst counted
    have shorter {count : Nat} (between : Comment.IsBetween lines count) (positive : 0 < count)
        (present : 0 < lines.length) (index : Nat) :
        tableRangesFrom index ((Comment.blanked lines).drop count) =
          tableRangesFrom index (lines.drop count) := by
      rw [← between.blanked]
      exact inductionHypothesis _ (by rw [List.length_drop]; omega) (headless.behind between)
        (level.behind between) index rfl
    match lines with
    | [] => rw [Comment.blanked]
    | line :: rest =>
      have present : 0 < (line :: rest).length := Nat.succ_pos _
      cases read : Comment.blockAt? line rest with
      | some block =>
        obtain ⟨content, further⟩ := block
        have between := Comment.IsBetween.block read
        have later := shorter between (Nat.succ_pos _) present (index + (further + 1))
        rw [← between.blanked, List.drop_succ_cons] at later
        rw [Comment.blanked_of_block read, tableRangesFrom_replicate, later,
          tableRangesFrom_block headless read]
      | none =>
        obtain ⟨same, between⟩ := table_blanked read level index
        have ordered := le_table index line rest
        rw [Comment.blanked_of_code read] at shorter ⊢
        rw [tableRangesFrom, tableRangesFrom]
        split
        · have later := shorter between (by omega) present ((table index line rest).2 + 1)
          rw [Nat.succ_sub ordered, List.drop_succ_cons, List.drop_succ_cons] at later
          dsimp only
          rw [same, later]
        · exact shorter (.code read) Nat.one_pos present (index + 1)

/-- The table types of a file are those of its code. -/
theorem tableRanges_blanked {lines : List Text} (headless : IsHeadless lines)
    (level : IsLevel lines) :
    tableRanges (Comment.blanked lines) = tableRanges lines :=
  tableRangesFrom_blanked headless level 0

/-- The first line of a range reads as the head of a table type. -/
theorem exists_head_of_mem_tableRangesFrom {index : Nat} {lines left : List Text}
    (place : lines.drop index = left) {range : Nat × Nat}
    (member : range ∈ tableRangesFrom index left) :
    ∃ head, lines[range.1 - 1]? = some head ∧ (tableHead? head).isSome = true := by
  fun_induction tableRangesFrom index left with
  | case1 index => cases member
  | case2 index line rest opens last inductionHypothesis =>
    rcases List.mem_cons.mp member with rfl | later
    · exact ⟨line, Comment.getElem?_of_drop place, opens⟩
    · refine inductionHypothesis ?_ later
      have ordered : index ≤ last := le_table index line rest
      rw [← Comment.drop_further place (last - index), Nat.add_sub_cancel' ordered]
  | case3 index line rest other inductionHypothesis =>
    exact inductionHypothesis (Comment.drop_further place 0) member

/-- No block begins on the line of the head of a table type. -/
theorem firstLine_ne_of_head {lines : List Text} {block : Comment.Block} {head : Text}
    {number : Nat}
    (member : block ∈ Comment.blocks lines) (stands : lines[number - 1]? = some head)
    (opens : (tableHead? head).isSome = true) : block.firstLine ≠ number := by
  rintro rfl
  obtain ⟨line, first, begins⟩ := (Comment.isIn_of_mem_blocks member).begins
  cases first.symm.trans stands
  rw [tableHead?_of_begins begins] at opens
  cases opens

/-- A line that belongs to a block and is not its first one is an inner line. -/
theorem mem_innerLines {lines : List Text} {block : Comment.Block} {line : Text} {number : Nat}
    (member : block ∈ Comment.blocks lines) (stands : lines[number - 1]? = some line)
    (behind : block.firstLine < number) (upTo : number ≤ block.lastLine) :
    line ∈ Comment.innerLines lines := by
  have first := (Comment.isIn_of_mem_blocks member).first
  rw [Comment.innerLines_eq]
  refine List.mem_flatMap.mpr
    ⟨block, member, List.mem_of_getElem? (i := number - block.firstLine - 1) ?_⟩
  rw [List.getElem?_tail, Comment.Block.linesIn, List.getElem?_take_of_lt (by omega),
    List.getElem?_drop, ← stands]
  congr 1
  omega

/-- The head of a table type stands in code when no inner line reads as one. -/
theorem covers_eq_false_of_headless {lines : List Text} (headless : IsHeadless lines)
    {range : Nat × Nat} (inside : range ∈ tableRanges lines) {block : Comment.Block}
    (member : block ∈ Comment.blocks lines) : block.covers range.1 = false := by
  obtain ⟨head, stands, opens⟩ := exists_head_of_mem_tableRangesFrom List.drop_zero inside
  by_contra covered
  rw [Bool.not_eq_false, Comment.Block.covers, Bool.and_eq_true, decide_eq_true_eq,
    decide_eq_true_eq] at covered
  have behind : block.firstLine < range.1 :=
    Nat.lt_of_le_of_ne covered.1 (firstLine_ne_of_head member stands opens)
  rw [headless head (mem_innerLines member stands behind covered.2)] at opens
  cases opens

/-- The blocks that are read are those that begin in no range of a table type. -/
theorem mem_readBlocks_iff {lines : List Text} {block : Comment.Block} :
    block ∈ Assembly.readBlocks lines ↔ block ∈ Comment.blocks lines ∧
      ∀ range ∈ tableRanges lines, ¬ (range.1 ≤ block.firstLine ∧ block.firstLine ≤ range.2) := by
  rw [Assembly.readBlocks, Assembly.recordsOf, List.map_map]
  simp [Function.comp_def]

/-- Whether a block begins in the body of a table type whose head stands in code. -/
def BeginsInTable (lines : List Text) (block : Comment.Block) : Prop :=
  ∃ range ∈ tableRanges lines, range.1 < block.firstLine ∧ block.firstLine ≤ range.2 ∧
    ∀ other ∈ Comment.blocks lines, other.covers range.1 = false

instance (lines : List Text) (block : Comment.Block) : Decidable (BeginsInTable lines block) :=
  inferInstanceAs (Decidable (∃ range ∈ tableRanges lines, _))

/-- Where no inner line of a comment reads as the head of a table type, the blocks that are left out
are those in the bodies of table types in the code. Where the inner lines do not change the depth of
braces either, other documentation in the same places leaves out the same blocks. -/
theorem left_out_by_code {lines : List Text} (headless : IsHeadless lines) :
    (∀ block ∈ Comment.blocks lines,
      block ∉ Assembly.readBlocks lines ↔ BeginsInTable lines block) ∧
    (IsLevel lines → ∀ others : List Text, IsHeadless others → IsLevel others →
      Comment.blanked others = Comment.blanked lines →
      ∀ block ∈ Comment.blocks lines, ∀ other ∈ Comment.blocks others,
        other.firstLine = block.firstLine →
          (other ∈ Assembly.readBlocks others ↔ block ∈ Assembly.readBlocks lines)) := by
  constructor
  · intro block member
    rw [mem_readBlocks_iff, and_iff_right member]
    push Not
    refine exists_congr fun range => and_congr_right fun inside => ?_
    obtain ⟨head, stands, opens⟩ := exists_head_of_mem_tableRangesFrom List.drop_zero inside
    have apart := (firstLine_ne_of_head member stands opens).symm
    constructor
    · rintro ⟨first, last⟩
      exact ⟨Nat.lt_of_le_of_ne first apart, last,
        fun other held => covers_eq_false_of_headless headless inside held⟩
    · rintro ⟨first, last, -⟩
      exact ⟨Nat.le_of_lt first, last⟩
  · intro level others otherHeadless otherLevel sameCode block member other otherMember sameLine
    rw [mem_readBlocks_iff, mem_readBlocks_iff, and_iff_right member, and_iff_right otherMember,
      sameLine, ← tableRanges_blanked headless level,
      ← tableRanges_blanked otherHeadless otherLevel,
      sameCode]

/-- A table type in a nested type of which a comment stands, with the given text in it, and a
class. -/
def frameLines (text : Text) : List Text :=
  ["type Door = \x7b", "  frame: \x7b", "    --[=[", text, "    ]=]", "  \x7d,", "\x7d",
    "--- @class Gate"]

theorem left_out_by_code_frame :
    IsHeadless (frameLines "Made of oak.") ∧ IsLevel (frameLines "Made of oak.") ∧
    IsHeadless (frameLines "type Oak, \x7b and \x7d") ∧
    IsLevel (frameLines "type Oak, \x7b and \x7d") ∧
    ⟨3, 5, ["Made of oak.", "    "]⟩ ∉ Assembly.readBlocks (frameLines "Made of oak.") ∧
    (⟨8, 8, ["@class Gate"]⟩ ∈ Assembly.readBlocks (frameLines "type Oak, \x7b and \x7d") ↔
      ⟨8, 8, ["@class Gate"]⟩ ∈ Assembly.readBlocks (frameLines "Made of oak.")) := by
  have headless : IsHeadless (frameLines "Made of oak.") := by decide +kernel
  have level : IsLevel (frameLines "Made of oak.") := by decide +kernel
  have otherHeadless : IsHeadless (frameLines "type Oak, \x7b and \x7d") := by decide +kernel
  have otherLevel : IsLevel (frameLines "type Oak, \x7b and \x7d") := by decide +kernel
  obtain ⟨leftOut, same⟩ := left_out_by_code headless
  refine ⟨headless, level, otherHeadless, otherLevel, ?_, ?_⟩
  · exact (leftOut _ (by decide +kernel)).mpr (by decide +kernel)
  · exact same level _ otherHeadless otherLevel (by decide +kernel) _ (by decide +kernel) _
      (by decide +kernel) rfl

/-- Documentation does hide documentation: a sample in a comment opens a table type that runs over
the class behind it, and a brace in a comment keeps a table open in the same way. -/
theorem not_left_out_by_code :
    (¬ ∀ lines : List Text, ∀ block ∈ Comment.blocks lines,
      block ∉ Assembly.readBlocks lines → BeginsInTable lines block) ∧
    ¬ ∀ lines others : List Text, Comment.blanked others = Comment.blanked lines →
      ∀ block ∈ Comment.blocks lines, ∀ other ∈ Comment.blocks others,
        other.firstLine = block.firstLine →
          block ∈ Assembly.readBlocks lines → other ∈ Assembly.readBlocks others := by
  constructor
  · intro all
    have inTable := all ["--[=[", "@class Door", "type Sample = \x7b", "]=]", "--- @class Gate"]
      ⟨5, 5, ["@class Gate"]⟩ (by decide +kernel) (by decide +kernel)
    exact absurd inTable (by decide +kernel)
  · intro all
    have kept := all (frameLines "Made of oak.") (frameLines "An open \x7b.") (by decide +kernel)
      ⟨8, 8, ["@class Gate"]⟩ (by decide +kernel) ⟨8, 8, ["@class Gate"]⟩ (by decide +kernel) rfl
      (by decide +kernel)
    exact absurd kept (by decide +kernel)

end Declaration

end LuauReference
