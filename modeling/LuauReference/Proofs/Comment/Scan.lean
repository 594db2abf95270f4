/-
This file proves that the documentation blocks of a file divide it up. The blocks stand one after
the other, and every line that could begin a block lies in one. A run of documentation lines is as
long as it can be, and a long comment ends at the first closer or with the file; what either holds
is told from the lines that it takes. The reader only ever goes on behind the block that it has just
found, so each law is one about a single block, but for the two that speak of all blocks at once.
-/

import LuauReference.Proofs.Comment.Block
import LuauReference.Proofs.Text.Blank
import LuauReference.Proofs.Text.Cut

namespace LuauReference

namespace Comment

/-! ### What a block is made of -/

/-- Whether a line begins a block where no block is open. -/
def Begins (line : Text) : Prop :=
  (Text.trim line).startsWith lineMarker = true ∨ (Text.trim line).startsWith opener = true

/-- The lines of a file that a block takes. -/
def Block.linesIn (block : Block) (lines : List Text) : List Text :=
  (lines.drop (block.firstLine - 1)).take (block.lastLine + 1 - block.firstLine)

/-- Whether a block is a whole run of documentation lines. -/
structure Block.IsRun (block : Block) (lines : List Text) : Prop where
  marked : ∀ line ∈ block.linesIn lines, isMarked line = true
  ends : ∀ next, lines[block.lastLine]? = some next → isMarked next = false
  content : block.content = (block.linesIn lines).map stripMarker

/-- Whether a line opens a long comment, with the given text behind the opener. -/
def Opens (line afterOpener : Text) : Prop :=
  ∃ indent, Text.isBlankText indent = true ∧ line = indent ++ opener ++ afterOpener

/-- The lines that a long comment takes, the lines of the file behind it, and its content. -/
inductive IsLong : List Text → List Text → List Text → Prop
  | onOneLine {line afterOpener inner rest : Text} {later : List Text}
      (opens : Opens line afterOpener) (cut : Text.IsCut closer afterOpener inner rest) :
      IsLong [line] later (unlessEmpty inner)
  | closed {line afterOpener last before rest : Text} {interior later : List Text}
      (opens : Opens line afterOpener) (unclosed : ¬ closer <:+: afterOpener)
      (open_ : ∀ inner ∈ interior, ¬ closer <:+: inner) (cut : Text.IsCut closer last before rest) :
      IsLong (line :: (interior ++ [last])) later
        (unlessEmpty afterOpener ++ interior ++ unlessEmpty before)
  | unclosed {line afterOpener : Text} {interior : List Text}
      (opens : Opens line afterOpener) (unclosed : ¬ closer <:+: afterOpener)
      (open_ : ∀ inner ∈ interior, ¬ closer <:+: inner) :
      IsLong (line :: interior) [] (unlessEmpty afterOpener ++ interior)

/-- Whether blocks divide up a file. -/
structure Divides (found : List Block) (lines : List Text) : Prop where
  inside : ∀ block ∈ found,
    1 ≤ block.firstLine ∧ block.firstLine ≤ block.lastLine ∧ block.lastLine ≤ lines.length
  apart : found.Pairwise fun block next => block.lastLine < next.firstLine
  begins : ∀ block ∈ found, ∃ line, lines[block.firstLine - 1]? = some line ∧ Begins line
  complete : ∀ index line, lines[index]? = some line → Begins line →
    ∃ block ∈ found, block.firstLine ≤ index + 1 ∧ index + 1 ≤ block.lastLine
  runs : ∀ block ∈ found, ∀ line, lines[block.firstLine - 1]? = some line →
    (Text.trim line).startsWith lineMarker = true → block.IsRun lines
  longs : ∀ block ∈ found, ∀ line, lines[block.firstLine - 1]? = some line →
    (Text.trim line).startsWith opener = true →
      IsLong (block.linesIn lines) (lines.drop block.lastLine) block.content

/-! ### Lines that begin a block -/

theorem isMarked_eq (line : Text) : isMarked line = (Text.trim line).startsWith lineMarker :=
  (Text.startsWith_trim (by decide) line).symm

theorem startsWith_opener (line : Text) :
    (Text.trimStart line).startsWith opener = (Text.trim line).startsWith opener :=
  (Text.startsWith_trim (by decide) line).symm

/-- No line begins blocks of both kinds. -/
theorem isMarked_of_opens {line : Text} (opens : (Text.trim line).startsWith opener = true) :
    isMarked line = false := by
  obtain ⟨rest, begins⟩ := Text.startsWith_iff.mp opens
  rw [isMarked_eq, begins]
  rfl

theorem begins_of_blockAt? {line : Text} {rest content : List Text} {further : Nat}
    (found : blockAt? line rest = some (content, further)) : Begins line := by
  rw [blockAt?, isMarked_eq, startsWith_opener] at found
  split at found
  · next marked => exact Or.inl marked
  · split at found
    · next opens => exact Or.inr opens
    · cases found

theorem not_begins_of_blockAt? {line : Text} {rest : List Text}
    (nothing : blockAt? line rest = none) :
    ¬ Begins line := by
  rw [blockAt?, isMarked_eq, startsWith_opener] at nothing
  split at nothing
  · cases nothing
  · next unmarked =>
    split at nothing
    · next opens =>
      rw [← startsWith_opener] at opens
      rw [Option.map_eq_none_iff] at nothing
      cases (isSome_longBody? rest opens).symm.trans (congrArg Option.isSome nothing)
    · next unopened => exact not_or.mpr ⟨unmarked, unopened⟩

/-! ### Runs -/

theorem take_length_lineRun (lines : List Text) :
    lines.take (lineRun lines).length = lines.takeWhile isMarked := by
  rw [lineRun, List.length_map]
  exact (List.prefix_iff_eq_take.mp (List.takeWhile_prefix isMarked)).symm

theorem drop_length_lineRun (lines : List Text) :
    lines.drop (lineRun lines).length = lines.dropWhile isMarked := by
  rw [lineRun, List.length_map]
  calc lines.drop (lines.takeWhile isMarked).length
      = (lines.takeWhile isMarked ++ lines.dropWhile isMarked).drop
          (lines.takeWhile isMarked).length := by rw [List.takeWhile_append_dropWhile]
    _ = lines.dropWhile isMarked := List.drop_left

/-- Behind a run stands no further documentation line. -/
theorem isMarked_of_head?_dropWhile {lines : List Text} {next : Text}
    (stands : (lines.dropWhile isMarked).head? = some next) : isMarked next = false := by
  have stop := List.head?_dropWhile_not isMarked lines
  rw [stands] at stop
  exact stop

/-! ### Long comments -/

/-- The first occurrence of the opener in a line that opens a long comment is behind its
indentation. -/
theorem opens_of_cut? {line before afterOpener : Text}
    (begins : (Text.trim line).startsWith opener = true)
    (found : Text.cut? opener line = some (before, afterOpener)) : Opens line afterOpener := by
  have cut := Text.isCut_of_cut? found
  rw [← startsWith_opener] at begins
  obtain ⟨rest, opened⟩ := Text.startsWith_iff.mp begins
  have whole : line = line.takeWhile Text.isBlank ++ opener ++ rest := by
    rw [List.append_assoc, ← opened]
    exact List.takeWhile_append_dropWhile.symm
  have shorter : before.length ≤ (line.takeWhile Text.isBlank).length :=
    cut.first _ ⟨rest, whole.symm⟩
  have front : before <+: line.takeWhile Text.isBlank :=
    List.prefix_of_prefix_length_le
      ⟨opener ++ afterOpener, by rw [← List.append_assoc]; exact cut.whole.symm⟩
      (List.takeWhile_prefix _) shorter
  exact ⟨before, List.all_eq_true.mpr fun c member => List.mem_takeWhile_imp (front.subset member),
    cut.whole⟩

/-- The lines behind the one that opens a long comment are read up to the first closer, or else
all. -/
theorem longRest_cases (lines : List Text) :
    (∃ interior last later before rest, lines = interior ++ last :: later ∧
      (∀ inner ∈ interior, ¬ closer <:+: inner) ∧ Text.IsCut closer last before rest ∧
      longRest lines = ⟨interior ++ unlessEmpty before, interior.length + 1, true⟩) ∨
    ((∀ inner ∈ lines, ¬ closer <:+: inner) ∧ longRest lines = ⟨lines, lines.length, false⟩) := by
  induction lines with
  | nil => exact Or.inr ⟨List.forall_mem_nil _, rfl⟩
  | cons line lines inductionHypothesis =>
    cases found : Text.cut? closer line with
    | some sides =>
      refine Or.inl ⟨[], line, lines, sides.1, sides.2, rfl, List.forall_mem_nil _,
        Text.isCut_of_cut? found, ?_⟩
      rw [longRest, found]
      rfl
    | none =>
      have open_ := Text.not_isInfix_of_cut? found
      rcases inductionHypothesis with
        ⟨interior, last, later, before, rest, whole, others, cut, read⟩ | ⟨others, read⟩
      · refine Or.inl ⟨line :: interior, last, later, before, rest, by rw [whole]; rfl,
          List.forall_mem_cons.mpr ⟨open_, others⟩, cut, ?_⟩
        rw [longRest, found, read]
        rfl
      · refine Or.inr ⟨List.forall_mem_cons.mpr ⟨open_, others⟩, ?_⟩
        rw [longRest, found, read]
        rfl

/-- What is read of a long comment is one. -/
theorem isLong_of_longBody? {line : Text} {rest : List Text} {body : LongBody}
    (begins : (Text.trim line).startsWith opener = true)
    (found : longBody? line rest = some body) :
    IsLong (line :: rest.take (body.taken - 1)) (rest.drop (body.taken - 1)) body.content := by
  rw [longBody?] at found
  split at found
  · cases found
  · next before afterOpener opened =>
    have opens := opens_of_cut? begins opened
    split at found
    · next inner trailing cut =>
      cases found
      exact .onOneLine opens (Text.isCut_of_cut? cut)
    · next unclosed =>
      have open_ := Text.not_isInfix_of_cut? unclosed
      cases found
      rcases longRest_cases rest with
        ⟨interior, last, later, before, trailing, rfl, others, cut, read⟩ | ⟨others, read⟩
      · have taken : (interior ++ last :: later).take (interior.length + 1) = interior ++ [last] :=
          List.take_length_add_append 1
        have left : (interior ++ last :: later).drop (interior.length + 1) = later :=
          List.drop_length_add_append 1
        rw [read, Nat.add_sub_cancel, taken, left, ← List.append_assoc]
        exact .closed opens open_ others cut
      · rw [read, Nat.add_sub_cancel, List.take_length, List.drop_length]
        exact .unclosed opens open_ others

/-! ### One block of a file -/

/-- A block that lies in a file is what begins at its first line. -/
theorem Block.IsIn.exists_blockAt? {block : Block} {lines : List Text} (inside : block.IsIn lines) :
    ∃ line rest further, lines.drop (block.firstLine - 1) = line :: rest ∧
      blockAt? line rest = some (block.content, further) ∧
      block.lastLine = block.firstLine + further := by
  have bounded : block.firstLine - 1 < lines.length := by
    have first := inside.first
    have ordered := inside.ordered
    have last := inside.last
    omega
  obtain ⟨line, rest, place⟩ := exists_drop bounded
  have found := inside.found
  rw [blockAtIndex, linesAt_of_drop place] at found
  obtain ⟨⟨content, further⟩, here, same⟩ := Option.map_eq_some_iff.mp (Except.ok.inj found)
  exact ⟨line, rest, further, place, by rw [here, ← same], by rw [← same]⟩

section

variable {block : Block} {lines rest : List Text} {line : Text} {further : Nat}

theorem linesIn_of_drop (place : lines.drop (block.firstLine - 1) = line :: rest)
    (last : block.lastLine = block.firstLine + further) :
    block.linesIn lines = line :: rest.take further := by
  rw [Block.linesIn, place, last, show block.firstLine + further + 1 - block.firstLine = further + 1
    by omega, List.take_succ_cons]

theorem drop_lastLine (place : lines.drop (block.firstLine - 1) = line :: rest)
    (first : 1 ≤ block.firstLine) (last : block.lastLine = block.firstLine + further) :
    lines.drop block.lastLine = rest.drop further := by
  rw [← drop_further place further, last, show block.firstLine - 1 + further + 1 =
    block.firstLine + further by omega]

end

theorem Block.IsIn.begins {block : Block} {lines : List Text} (inside : block.IsIn lines) :
    ∃ line, lines[block.firstLine - 1]? = some line ∧ Begins line := by
  obtain ⟨line, rest, further, place, found, last⟩ := inside.exists_blockAt?
  exact ⟨line, getElem?_of_drop place, begins_of_blockAt? found⟩

theorem Block.IsIn.isRun {block : Block} {lines : List Text} {line : Text}
    (inside : block.IsIn lines) (stands : lines[block.firstLine - 1]? = some line)
    (begins : (Text.trim line).startsWith lineMarker = true) : block.IsRun lines := by
  obtain ⟨_, rest, further, place, found, last⟩ := inside.exists_blockAt?
  cases (getElem?_of_drop place).symm.trans stands
  rw [← isMarked_eq] at begins
  rw [blockAt?, if_pos begins] at found
  obtain ⟨content, same⟩ := Prod.mk.inj (Option.some.inj found)
  have taken : block.linesIn lines = line :: rest.takeWhile isMarked := by
    rw [linesIn_of_drop place last, ← same, take_length_lineRun]
  refine ⟨?_, ?_, ?_⟩
  · rw [taken]
    exact List.forall_mem_cons.mpr ⟨begins, fun inner member => List.mem_takeWhile_imp member⟩
  · intro next stands
    rw [← List.head?_drop, drop_lastLine place inside.first last, ← same, drop_length_lineRun]
      at stands
    exact isMarked_of_head?_dropWhile stands
  · rw [taken, ← content]
    rfl

theorem Block.IsIn.isLong {block : Block} {lines : List Text} {line : Text}
    (inside : block.IsIn lines) (stands : lines[block.firstLine - 1]? = some line)
    (begins : (Text.trim line).startsWith opener = true) :
    IsLong (block.linesIn lines) (lines.drop block.lastLine) block.content := by
  obtain ⟨_, rest, further, place, found, last⟩ := inside.exists_blockAt?
  cases (getElem?_of_drop place).symm.trans stands
  rw [blockAt?, isMarked_of_opens begins, if_neg Bool.false_ne_true, startsWith_opener,
    if_pos begins] at found
  obtain ⟨body, long, same⟩ := Option.map_eq_some_iff.mp found
  obtain ⟨content, taken⟩ := Prod.mk.inj same
  rw [linesIn_of_drop place last, drop_lastLine place inside.first last, ← content, ← taken]
  exact isLong_of_longBody? begins long

/-! ### All blocks of a file -/

theorem le_firstLine_of_mem_blocksFrom {number : Nat} {lines : List Text} {block : Block}
    (member : block ∈ blocksFrom number lines) : number ≤ block.firstLine := by
  fun_induction blocksFrom number lines with
  | case1 number => cases member
  | case2 number line rest content further found inductionHypothesis =>
    rcases List.mem_cons.mp member with rfl | later
    · exact Nat.le_refl _
    · have bound := inductionHypothesis later
      omega
  | case3 number line rest nothing inductionHypothesis =>
    have bound := inductionHypothesis member
    omega

theorem pairwise_blocksFrom (number : Nat) (lines : List Text) :
    (blocksFrom number lines).Pairwise fun block next => block.lastLine < next.firstLine := by
  fun_induction blocksFrom number lines with
  | case1 number => exact .nil
  | case2 number line rest content further found inductionHypothesis =>
    refine List.pairwise_cons.mpr ⟨fun next later => ?_, inductionHypothesis⟩
    exact le_firstLine_of_mem_blocksFrom later
  | case3 number line rest nothing inductionHypothesis => exact inductionHypothesis

/-- No line that begins a block is left out: the reader passes it by only inside of a block. -/
theorem exists_of_begins {number : Nat} {lines : List Text} {index : Nat} {line : Text}
    (stands : lines[index]? = some line) (begins : Begins line) :
    ∃ block ∈ blocksFrom number lines,
      block.firstLine ≤ number + index ∧ number + index ≤ block.lastLine := by
  fun_induction blocksFrom number lines generalizing index with
  | case1 number => cases stands
  | case2 number first rest content further found inductionHypothesis =>
    by_cases near : index ≤ further
    · exact ⟨_, List.mem_cons_self, Nat.le_add_right _ _, Nat.add_le_add_left near number⟩
    · obtain ⟨beyond, rfl⟩ : ∃ beyond, index = further + beyond + 1 :=
        ⟨index - further - 1, by omega⟩
      have further_ : (rest.drop further)[beyond]? = some line := by
        rw [List.getElem?_drop]
        exact stands
      obtain ⟨block, member, from_, upTo⟩ := inductionHypothesis further_
      exact ⟨block, List.mem_cons_of_mem _ member, by omega, by omega⟩
  | case3 number first rest nothing inductionHypothesis =>
    cases index with
    | zero =>
      cases stands
      exact absurd begins (not_begins_of_blockAt? nothing)
    | succ index =>
      obtain ⟨block, member, from_, upTo⟩ := @inductionHypothesis index stands
      exact ⟨block, member, by omega, by omega⟩

/-- The documentation blocks of a file divide it up. -/
theorem blocks_divide_file (lines : List Text) : Divides (blocks lines) lines where
  inside := fun _ member =>
    ⟨(isIn_of_mem_blocks member).first, (isIn_of_mem_blocks member).ordered,
      (isIn_of_mem_blocks member).last⟩
  apart := pairwise_blocksFrom 1 lines
  begins := fun _ member => (isIn_of_mem_blocks member).begins
  complete := by
    intro index line stands begins
    rw [Nat.add_comm index 1]
    exact exists_of_begins stands begins
  runs := fun _ member _ stands begins => (isIn_of_mem_blocks member).isRun stands begins
  longs := fun _ member _ stands begins => (isIn_of_mem_blocks member).isLong stands begins

end Comment

end LuauReference
