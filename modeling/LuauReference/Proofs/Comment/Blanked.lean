/-
This file sets the code of a file apart from its documentation. Blanking out the documentation
leaves empty lines where it stood and every line of code in its place. A file can be cut in front of
any line that no block reaches over, and then the part behind the cut is blanked out as it was in
the whole; readers of code that go on behind such lines only cannot tell the two files apart. Inner
lines are the ones they must not stop at: lines that belong to a block and need not look like it.
-/

import LuauReference.Proofs.Comment.Scan

namespace LuauReference

namespace Comment

/-! ### Blanking out -/

/-- The lines of a file with its documentation blanked out. -/
def blanked (lines : List Text) : List Text :=
  match lines with
  | [] => []
  | line :: rest =>
    match blockAt? line rest with
    | some (_, further) => List.replicate (further + 1) [] ++ blanked (rest.drop further)
    | none => line :: blanked rest
termination_by lines.length
decreasing_by
  all_goals simp only [List.length_drop, List.length_cons]; omega

/-- The lines of blocks behind the first line of each. -/
def innerLines (lines : List Text) : List Text :=
  match lines with
  | [] => []
  | line :: rest =>
    match blockAt? line rest with
    | some (_, further) => rest.take further ++ innerLines (rest.drop further)
    | none => innerLines rest
termination_by lines.length
decreasing_by
  all_goals simp only [List.length_drop, List.length_cons]; omega

section

variable {line : Text} {rest content : List Text} {further : Nat}

theorem blanked_of_block (found : blockAt? line rest = some (content, further)) :
    blanked (line :: rest) = List.replicate (further + 1) [] ++ blanked (rest.drop further) := by
  rw [blanked, found]

theorem blanked_of_code (nothing : blockAt? line rest = none) :
    blanked (line :: rest) = line :: blanked rest := by
  rw [blanked, nothing]

theorem innerLines_of_block (found : blockAt? line rest = some (content, further)) :
    innerLines (line :: rest) = rest.take further ++ innerLines (rest.drop further) := by
  rw [innerLines, found]

theorem innerLines_of_code (nothing : blockAt? line rest = none) :
    innerLines (line :: rest) = innerLines rest := by
  rw [innerLines, nothing]

theorem length_block (found : blockAt? line rest = some (content, further)) :
    (line :: rest.take further).length = further + 1 := by
  rw [List.length_cons, List.length_take, Nat.min_eq_left (further_le_of_blockAt? found)]

theorem block_append (line : Text) (rest : List Text) (further : Nat) :
    (line :: rest.take further) ++ rest.drop further = line :: rest := by
  rw [List.cons_append, List.take_append_drop]

end

/-- A line of code is one whatever follows it. -/
theorem blockAt?_of_code {line : Text} {rest : List Text} (nothing : blockAt? line rest = none)
    (others : List Text) : blockAt? line others = none := by
  cases found : blockAt? line others with
  | none => rfl
  | some read => exact absurd (begins_of_blockAt? found) (not_begins_of_blockAt? nothing)

/-- The inner lines are those that the blocks of a file take behind their first ones. -/
theorem innerLines_eq_flatMap {lines left : List Text} {index : Nat}
    (place : lines.drop index = left) :
    innerLines left = (blocksFrom (index + 1) left).flatMap fun block =>
      (block.linesIn lines).tail := by
  fun_induction innerLines left generalizing index with
  | case1 => rw [blocksFrom, List.flatMap_nil]
  | case2 line rest content further found inductionHypothesis =>
    have later := drop_further place further
    have own : Block.linesIn ⟨index + 1, index + 1 + further, content⟩ lines =
        line :: rest.take further := linesIn_of_drop place rfl
    rw [blocksFrom, found]
    dsimp only
    rw [List.flatMap_cons, own, List.tail_cons, inductionHypothesis later,
      Nat.add_right_comm index 1 further]
  | case3 line rest nothing inductionHypothesis =>
    rw [blocksFrom, nothing]
    exact inductionHypothesis (drop_further place 0)

theorem innerLines_eq (lines : List Text) :
    innerLines lines = (blocks lines).flatMap fun block => (block.linesIn lines).tail :=
  innerLines_eq_flatMap List.drop_zero

/-! ### Line by line -/

/-- Whether the line with a number belongs to a block. -/
def Block.covers (block : Block) (number : Nat) : Bool :=
  block.firstLine ≤ number && number ≤ block.lastLine

theorem covers_eq_false_of_lt {block : Block} {number : Nat} (before : number < block.firstLine) :
    block.covers number = false := by
  rw [Block.covers, decide_eq_false (Nat.not_le.mpr before), Bool.false_and]

/-! ### Cuts between blocks -/

/-- Whether no block reaches over the first lines of a file, as many as the given number. -/
structure IsBetween (lines : List Text) (count : Nat) : Prop where
  blanked : blanked (lines.drop count) = (blanked lines).drop count
  inner : innerLines (lines.drop count) ⊆ innerLines lines

namespace IsBetween

theorem zero (lines : List Text) : IsBetween lines 0 :=
  ⟨rfl, List.Subset.refl _⟩

theorem trans {lines : List Text} {first second : Nat} (front : IsBetween lines first)
    (back : IsBetween (lines.drop first) second) : IsBetween lines (first + second) where
  blanked := by rw [← List.drop_drop, back.blanked, front.blanked, List.drop_drop]
  inner := by
    rw [← List.drop_drop]
    exact List.Subset.trans back.inner front.inner

variable {line : Text} {rest content : List Text} {further : Nat}

theorem block (found : blockAt? line rest = some (content, further)) :
    IsBetween (line :: rest) (further + 1) where
  blanked := by
    rw [blanked_of_block found, List.drop_succ_cons, List.drop_append_of_le_length (by simp)]
    simp
  inner := by
    rw [innerLines_of_block found, List.drop_succ_cons]
    exact List.subset_append_right _ _

theorem code (nothing : blockAt? line rest = none) : IsBetween (line :: rest) 1 where
  blanked := by
    rw [blanked_of_code nothing]
    rfl
  inner := by
    rw [innerLines_of_code nothing]
    exact List.Subset.refl _

end IsBetween

end Comment

end LuauReference
