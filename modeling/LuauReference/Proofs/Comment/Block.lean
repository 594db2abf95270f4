/-
This file proves that documentation blocks lie inside their file. The blocks of a file are found by
going down its lines, and looking at one of them by its index finds it again. Positions are told by
the lines that are left: a line stands at an index when dropping that many lines leaves it at the
head.
-/

import LuauReference.Comment.Block
import Mathlib.Data.List.Basic

namespace LuauReference

/-! ### Marks inside of a text -/

namespace Text

/-- A mark that begins a text occurs in it. -/
theorem isSome_cut?_of_startsWith {mark s : Text} (begins : s.startsWith mark = true) :
    (cut? mark s).isSome = true := by
  cases s with
  | nil =>
    cases mark with
    | nil => rfl
    | cons m mark => simp [startsWith, after?] at begins
  | cons c rest =>
    obtain ⟨tail, found⟩ := Option.isSome_iff_exists.mp begins
    simp [cut?, found]

/-- A mark that occurs in the rest of a text occurs in the text. -/
theorem isSome_cut?_cons {mark rest : Text} (c : Char) (found : (cut? mark rest).isSome = true) :
    (cut? mark (c :: rest)).isSome = true := by
  rw [cut?]
  split
  · rfl
  · simpa using found

/-- A mark that begins a text without its blanks occurs in the text. -/
theorem isSome_cut?_of_startsWith_trimStart {mark s : Text}
    (begins : (trimStart s).startsWith mark = true) : (cut? mark s).isSome = true := by
  induction s with
  | nil => exact isSome_cut?_of_startsWith begins
  | cons c rest inductionHypothesis =>
    rw [trimStart, List.dropWhile_cons] at begins
    split at begins
    · exact isSome_cut?_cons c (inductionHypothesis begins)
    · exact isSome_cut?_of_startsWith begins

end Text

namespace Comment

/-! ### The lines that a block takes -/

theorem length_lineRun_le (lines : List Text) : (lineRun lines).length ≤ lines.length := by
  rw [lineRun, List.length_map]
  exact (List.takeWhile_prefix isMarked).length_le

theorem longRest_taken_le (lines : List Text) : (longRest lines).taken ≤ lines.length := by
  induction lines with
  | nil => exact Nat.le_refl 0
  | cons line rest inductionHypothesis =>
    rw [longRest]
    split
    · exact Nat.succ_le_succ (Nat.zero_le _)
    · exact Nat.succ_le_succ inductionHypothesis

/-- A long comment takes the line that opens it and no more lines than there are. -/
theorem taken_of_longBody? {line : Text} {rest : List Text} {body : LongBody}
    (found : longBody? line rest = some body) : 1 ≤ body.taken ∧ body.taken ≤ rest.length + 1 := by
  have bounded := longRest_taken_le rest
  unfold longBody? at found
  split at found
  · cases found
  · split at found
    · cases found
      exact ⟨Nat.le_refl 1, Nat.le_add_left 1 _⟩
    · cases found
      exact ⟨Nat.le_add_left 1 _, Nat.succ_le_succ bounded⟩

/-- A line that opens a long comment has one. -/
theorem isSome_longBody? {line : Text} (rest : List Text)
    (opens : (Text.trimStart line).startsWith opener = true) :
    (longBody? line rest).isSome = true := by
  obtain ⟨⟨before, afterOpener⟩, found⟩ :=
    Option.isSome_iff_exists.mp (Text.isSome_cut?_of_startsWith_trimStart opens)
  rw [longBody?, found]
  dsimp only
  split <;> rfl

/-- A block takes no more lines than there are. -/
theorem further_le_of_blockAt? {line : Text} {rest content : List Text} {further : Nat}
    (found : blockAt? line rest = some (content, further)) : further ≤ rest.length := by
  unfold blockAt? at found
  split at found
  · cases found
    exact length_lineRun_le rest
  · split at found
    · obtain ⟨body, long, same⟩ := Option.map_eq_some_iff.mp found
      cases same
      have taken := taken_of_longBody? long
      omega
    · cases found

/-! ### Positions -/

/-- The lines that are left after a line and further ones. -/
theorem drop_further {lines rest : List Text} {index : Nat} {line : Text}
    (place : lines.drop index = line :: rest) (further : Nat) :
    lines.drop (index + further + 1) = rest.drop further := by
  rw [show index + further + 1 = index + (1 + further) by omega, ← List.drop_drop, place,
    ← List.drop_drop]
  rfl

/-- The number of lines of a file from a line on. -/
theorem length_of_drop {lines rest : List Text} {index : Nat} {line : Text}
    (place : lines.drop index = line :: rest) : lines.length = index + rest.length + 1 := by
  have counted := congrArg List.length place
  rw [List.length_drop, List.length_cons] at counted
  omega

theorem linesAt_of_drop {lines rest : List Text} {index : Nat} {line : Text}
    (place : lines.drop index = line :: rest) : linesAt lines index = .ok (line, rest) := by
  rw [linesAt, place]

/-- Every index below the number of lines has a line. -/
theorem exists_drop {lines : List Text} {index : Nat} (inside : index < lines.length) :
    ∃ line rest, lines.drop index = line :: rest :=
  ⟨_, _, List.drop_eq_getElem_cons inside⟩

theorem getElem?_of_drop {lines rest : List Text} {index : Nat} {line : Text}
    (place : lines.drop index = line :: rest) : lines[index]? = some line := by
  rw [← List.head?_drop, place]
  rfl

theorem exists_drop_of_getElem? {lines : List Text} {index : Nat} {line : Text}
    (stands : lines[index]? = some line) : ∃ rest, lines.drop index = line :: rest := by
  obtain ⟨inside, rfl⟩ := List.getElem?_eq_some_iff.mp stands
  exact ⟨_, List.drop_eq_getElem_cons inside⟩

/-! ### Blocks of a file -/

/-- Whether a block lies in a file: its lines are lines of the file, and it is found by the index of
its first line. -/
structure Block.IsIn (block : Block) (lines : List Text) : Prop where
  first : 1 ≤ block.firstLine
  ordered : block.firstLine ≤ block.lastLine
  last : block.lastLine ≤ lines.length
  found : blockAtIndex lines (block.firstLine - 1) = .ok (some block)

theorem isIn_of_blockAt? {lines rest content : List Text} {index further : Nat} {line : Text}
    (place : lines.drop index = line :: rest)
    (found : blockAt? line rest = some (content, further)) :
    Block.IsIn ⟨index + 1, index + 1 + further, content⟩ lines where
  first := Nat.le_add_left 1 index
  ordered := Nat.le_add_right _ further
  last := by
    have bounded := further_le_of_blockAt? found
    have counted := length_of_drop place
    show index + 1 + further ≤ lines.length
    omega
  found := by
    rw [blockAtIndex, Nat.add_sub_cancel, linesAt_of_drop place]
    show Except.ok _ = _
    rw [found]
    rfl

theorem isIn_of_mem_blocksFrom {lines left : List Text} {index number : Nat} {block : Block}
    (place : lines.drop index = left) (numbered : number = index + 1)
    (member : block ∈ blocksFrom number left) : block.IsIn lines := by
  fun_induction blocksFrom number left generalizing index with
  | case1 number => cases member
  | case2 number line rest content further found inductionHypothesis =>
    subst numbered
    rcases List.mem_cons.mp member with rfl | later
    · exact isIn_of_blockAt? place found
    · exact inductionHypothesis (drop_further place further) (by omega) later
  | case3 number line rest none inductionHypothesis =>
    exact inductionHypothesis (drop_further place 0) (by omega) member

/-- Every block of a file lies in it. -/
theorem isIn_of_mem_blocks {lines : List Text} {block : Block} (member : block ∈ blocks lines) :
    block.IsIn lines :=
  isIn_of_mem_blocksFrom List.drop_zero rfl member

/-! ### Looking at an index -/

/-- Looking for a block at any index of a file returns, and what it finds lies in the file. -/
theorem blockAtIndex_returns {lines : List Text} {index : Nat} (inside : index < lines.length) :
    ∃ found, blockAtIndex lines index = .ok found ∧ ∀ block ∈ found, block.IsIn lines := by
  obtain ⟨line, rest, place⟩ := exists_drop inside
  refine ⟨_, by rw [blockAtIndex, linesAt_of_drop place]; rfl, ?_⟩
  intro block member
  obtain ⟨⟨content, further⟩, found, rfl⟩ := Option.map_eq_some_iff.mp member
  exact isIn_of_blockAt? place found

/-- Reading a long comment at an index where one opens returns, and its last line is in the file. -/
theorem longAtIndex_returns {lines rest : List Text} {index : Nat} {line : Text}
    (place : lines.drop index = line :: rest)
    (opens : (Text.trimStart line).startsWith opener = true) :
    ∃ content last closed, longAtIndex lines index = .ok (content, last, closed) ∧
      index ≤ last ∧ last < lines.length := by
  obtain ⟨body, found⟩ := Option.isSome_iff_exists.mp (isSome_longBody? rest opens)
  have taken := taken_of_longBody? found
  have counted := length_of_drop place
  refine ⟨body.content, index + body.taken - 1, body.closed, ?_, by omega, by omega⟩
  simp only [longAtIndex, linesAt_of_drop place, found, bind, Except.bind]
  rfl

end Comment

end LuauReference
