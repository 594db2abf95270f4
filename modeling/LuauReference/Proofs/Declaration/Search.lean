/-
This file proves that a documentation block is attached to the first line of code behind it. The
search for that line steps over blank lines and comments one at a time and over blocks as a whole,
and it knows a block only by its first line. What carries the proof is that the search never stands
inside of a block: it begins behind one, and both of its steps lead from a place between blocks to
another. So the lines it passes are blank, comments or in a block, and the line it stops at is in
none, whatever the inside of a block looks like.
-/

import LuauReference.Proofs.Comment.Blanked
import LuauReference.Proofs.Declaration.Reader
import Mathlib.Data.List.Pairwise

namespace LuauReference

namespace Comment

/-! ### Places between blocks -/

/-- Whether no block reaches over the place in front of the line with an index. -/
def IsApart (lines : List Text) (index : Nat) : Prop :=
  ∀ block ∈ blocks lines, block.lastLine ≤ index ∨ index < block.firstLine

theorem eq_of_firstLine {lines : List Text} {block other : Block} (member : block ∈ blocks lines)
    (otherMember : other ∈ blocks lines) (same : block.firstLine = other.firstLine) :
    block = other := by
  have found := (isIn_of_mem_blocks member).found
  rw [same, (isIn_of_mem_blocks otherMember).found] at found
  exact (Option.some.inj (Except.ok.inj found)).symm

/-- Two blocks of a file stand one behind the other. -/
theorem apart_of_ne {lines : List Text} {block other : Block} (member : block ∈ blocks lines)
    (otherMember : other ∈ blocks lines) (different : block ≠ other) :
    block.lastLine < other.firstLine ∨ other.lastLine < block.firstLine := by
  have either : (blocks lines).Pairwise fun block other =>
      block.lastLine < other.firstLine ∨ other.lastLine < block.firstLine :=
    (pairwise_blocksFrom 1 lines).imp Or.inl
  have symmetric : Std.Symm fun block other : Block =>
      block.lastLine < other.firstLine ∨ other.lastLine < block.firstLine := ⟨fun _ _ => Or.symm⟩
  exact either.forall member otherMember different

/-- The place behind a block is between blocks. -/
theorem isApart_lastLine {lines : List Text} {block : Block} (member : block ∈ blocks lines) :
    IsApart lines block.lastLine := by
  intro other otherMember
  by_cases same : block = other
  · exact Or.inl (by rw [same])
  · have ordered := (isIn_of_mem_blocks otherMember).ordered
    rcases apart_of_ne member otherMember same with behind | before
    · exact Or.inr behind
    · exact Or.inl (by have own := (isIn_of_mem_blocks member).ordered; omega)

section

variable {lines rest : List Text} {index : Nat} {line : Text}
    (place : lines.drop index = line :: rest)
  (apart : IsApart lines index)

include place

/-- The block that begins on a line is the one that is read there. -/
theorem blockAt?_of_mem_blocks {block : Block} (member : block ∈ blocks lines)
    (begins : block.firstLine = index + 1) :
    ∃ further, blockAt? line rest = some (block.content, further) := by
  obtain ⟨first, others, further, here, found, -⟩ := (isIn_of_mem_blocks member).exists_blockAt?
  rw [begins, Nat.add_sub_cancel, place] at here
  obtain ⟨rfl, rfl⟩ := List.cons.inj here
  exact ⟨further, found⟩

theorem firstLine_ne_of_code (nothing : blockAt? line rest = none) {block : Block}
    (member : block ∈ blocks lines) : block.firstLine ≠ index + 1 := by
  intro begins
  obtain ⟨further, found⟩ := blockAt?_of_mem_blocks place member begins
  cases nothing.symm.trans found

include apart

/-- What reads as a block at a place between blocks is one. -/
theorem mem_blocks_of_blockAt? {content : List Text} {further : Nat}
    (found : blockAt? line rest = some (content, further)) :
    ⟨index + 1, index + 1 + further, content⟩ ∈ blocks lines := by
  obtain ⟨block, member, from_, upTo⟩ : ∃ block ∈ blocks lines,
      block.firstLine ≤ 1 + index ∧ 1 + index ≤ block.lastLine :=
    exists_of_begins (getElem?_of_drop place) (begins_of_blockAt? found)
  have begins : block.firstLine = index + 1 := by
    have outside := apart block member
    omega
  have whole := (isIn_of_mem_blocks member).found
  rw [begins, Nat.add_sub_cancel, blockAtIndex, linesAt_of_drop place] at whole
  obtain ⟨read, here, same⟩ := Option.map_eq_some_iff.mp (Except.ok.inj whole)
  rw [found] at here
  cases here
  subst same
  exact member

/-- Behind a line of code at a place between blocks is another such place. -/
theorem isApart_of_code (nothing : blockAt? line rest = none) : IsApart lines (index + 1) := by
  intro block member
  rcases apart block member with before | behind
  · exact Or.inl (Nat.le_succ_of_le before)
  · exact Or.inr (Nat.lt_of_le_of_ne behind (firstLine_ne_of_code place nothing member).symm)

end

end Comment

namespace Declaration

/-! ### Searching by first lines -/

/-- The block that begins on the line with a number. -/
def blockFrom? (found : List Comment.Block) (number : Nat) : Option Comment.Block :=
  found.find? fun block => block.firstLine == number

/-- A search for a line of code in the lines of a file, from an index on, that knows blocks by their
first lines: whether it comes to an end, and the index at which it stops, if it does not pass all
lines. -/
inductive Searches (lines : List Text) (found : List Comment.Block) : Nat → Option Nat → Prop
  | passes {index : Nat} (beyond : lines.length ≤ index) : Searches lines found index none
  | jumps {index : Nat} {block : Comment.Block} {stop : Option Nat} (inside : index < lines.length)
      (begins : blockFrom? found (index + 1) = some block)
      (later : Searches lines found block.lastLine stop) : Searches lines found index stop
  | skips {index : Nat} {line : Text} {stop : Option Nat} (stands : lines[index]? = some line)
      (code : blockFrom? found (index + 1) = none) (skipped : isSkipped line = true)
      (later : Searches lines found (index + 1) stop) : Searches lines found index stop
  | stops {index : Nat} {line : Text} (stands : lines[index]? = some line)
      (code : blockFrom? found (index + 1) = none) (kept : isSkipped line = false) :
      Searches lines found index (some index)

/-- A search stops at one place at most. -/
theorem Searches.unique {lines : List Text} {found : List Comment.Block} {index : Nat}
    {stop other : Option Nat} (first : Searches lines found index stop)
    (second : Searches lines found index other) : stop = other := by
  induction first with
  | passes beyond =>
    cases second with
    | passes => rfl
    | jumps inside => omega
    | skips stands => exact absurd (List.getElem?_eq_some_iff.mp stands).1 (Nat.not_lt.mpr beyond)
    | stops stands => exact absurd (List.getElem?_eq_some_iff.mp stands).1 (Nat.not_lt.mpr beyond)
  | jumps inside begins _ inductionHypothesis =>
    cases second with
    | passes beyond => omega
    | jumps _ same later =>
      cases begins.symm.trans same
      exact inductionHypothesis later
    | skips _ code => cases begins.symm.trans code
    | stops _ code => cases begins.symm.trans code
  | skips stands code skipped _ inductionHypothesis =>
    cases second with
    | passes beyond => exact absurd (List.getElem?_eq_some_iff.mp stands).1 (Nat.not_lt.mpr beyond)
    | jumps _ begins => cases code.symm.trans begins
    | skips _ _ _ later => exact inductionHypothesis later
    | stops same _ kept =>
      cases stands.symm.trans same
      cases skipped.symm.trans kept
  | stops stands code kept =>
    cases second with
    | passes beyond => exact absurd (List.getElem?_eq_some_iff.mp stands).1 (Nat.not_lt.mpr beyond)
    | jumps _ begins => cases code.symm.trans begins
    | skips same _ skipped =>
      cases stands.symm.trans same
      cases kept.symm.trans skipped
    | stops => rfl

section

variable {lines : List Text} {index : Nat}

theorem blockFrom?_of_mem_blocks {block : Comment.Block} (member : block ∈ Comment.blocks lines)
    (begins : block.firstLine = index + 1) :
    blockFrom? (Comment.blocks lines) (index + 1) = some block := by
  cases found : blockFrom? (Comment.blocks lines) (index + 1) with
  | none =>
    have missing := List.find?_eq_none.mp found block member
    exact absurd (beq_iff_eq.mpr begins) missing
  | some other =>
    have same : (other.firstLine == index + 1) = true :=
      List.find?_some (p := fun block : Comment.Block => block.firstLine == index + 1) found
    have equal := begins.trans (beq_iff_eq.mp same).symm
    rw [Comment.eq_of_firstLine member (List.mem_of_find?_eq_some found) equal]

theorem blockFrom?_of_code {line : Text} {rest : List Text}
    (place : lines.drop index = line :: rest)
    (nothing : Comment.blockAt? line rest = none) :
    blockFrom? (Comment.blocks lines) (index + 1) = none := by
  refine List.find?_eq_none.mpr fun block member begins => ?_
  exact Comment.firstLine_ne_of_code place nothing member (beq_iff_eq.mp begins)

end

/-! ### The first line of code -/

/-- Whether the line with an index is one of code: it lies in no block, is not blank and does not
begin with a comment. -/
def IsCodeLine (lines : List Text) (index : Nat) : Prop :=
  ∃ line, lines[index]? = some line ∧
    (∀ block ∈ Comment.blocks lines, block.covers (index + 1) = false) ∧
    Text.trim line ≠ [] ∧ (Text.trim line).startsWith "--" = false

/-- Whether a search from an index on stops where it should: at the first line of code, and nowhere
only when there is none. -/
def IsFirstCode (lines : List Text) (start : Nat) : Option Nat → Prop
  | none => ∀ index, start ≤ index → ¬ IsCodeLine lines index
  | some stop => start ≤ stop ∧ IsCodeLine lines stop ∧
      ∀ index, start ≤ index → index < stop → ¬ IsCodeLine lines index

/-- Lines without code do not matter to where the first line of code is. -/
theorem IsFirstCode.of_later {lines : List Text} {start later : Nat} {stop : Option Nat}
    (first : IsFirstCode lines later stop) (ordered : start ≤ later)
    (between : ∀ index, start ≤ index → index < later → ¬ IsCodeLine lines index) :
    IsFirstCode lines start stop := by
  have split {index : Nat} (after : start ≤ index)
      (behind : later ≤ index → ¬ IsCodeLine lines index) :
      ¬ IsCodeLine lines index :=
    (Nat.lt_or_ge index later).elim (between index after) behind
  cases stop with
  | none => exact fun index after => split after (first index)
  | some stop =>
    obtain ⟨behind, code, least⟩ := first
    exact ⟨Nat.le_trans ordered behind, code,
      fun index after before => split after fun further => least index further before⟩

theorem not_isCodeLine_of_covers {lines : List Text} {index : Nat} {block : Comment.Block}
    (member : block ∈ Comment.blocks lines) (covers : block.covers (index + 1) = true) :
    ¬ IsCodeLine lines index := by
  rintro ⟨line, -, outside, -⟩
  cases covers.symm.trans (outside block member)

theorem isSkipped_eq_false_iff {line : Text} : isSkipped line = false ↔
    Text.trim line ≠ [] ∧ (Text.trim line).startsWith "--" = false := by
  rw [isSkipped, Bool.or_eq_false_iff, List.isEmpty_eq_false_iff]

/-- From a place between blocks the search stops at the first line of code. -/
theorem searches_nextCode? {lines left : List Text} {start : Nat} (place : lines.drop start = left)
    (apart : Comment.IsApart lines start) :
    Searches lines (Comment.blocks lines) start ((nextCode? start left).map Prod.fst) ∧
      IsFirstCode lines start ((nextCode? start left).map Prod.fst) := by
  fun_induction nextCode? start left with
  | case1 start =>
    have beyond := List.drop_eq_nil_iff.mp place
    refine ⟨.passes beyond, ?_⟩
    rintro index after ⟨line, stands, -⟩
    have bounded := (List.getElem?_eq_some_iff.mp stands).1
    omega
  | case2 start line rest content further found inductionHypothesis =>
    have counted := Comment.length_of_drop place
    have member := Comment.mem_blocks_of_blockAt? place apart found
    have last : start + 1 + further = start + further + 1 := Nat.add_right_comm _ _ _
    have apartLater := Comment.isApart_lastLine member
    dsimp only at apartLater
    rw [last] at apartLater
    obtain ⟨searched, first⟩ := inductionHypothesis (Comment.drop_further place further) apartLater
    refine ⟨.jumps (by omega) (blockFrom?_of_mem_blocks member rfl) (last ▸ searched), ?_⟩
    refine first.of_later (by omega) fun index after before => ?_
    exact not_isCodeLine_of_covers member (by simp [Comment.Block.covers]; omega)
  | case3 start line rest nothing skipped inductionHypothesis =>
    have stands := Comment.getElem?_of_drop place
    obtain ⟨searched, first⟩ := inductionHypothesis (Comment.drop_further place 0)
      (Comment.isApart_of_code place apart nothing)
    refine ⟨.skips stands (blockFrom?_of_code place nothing) skipped searched, ?_⟩
    refine first.of_later (Nat.le_succ start) fun index after before => ?_
    obtain rfl : index = start := by omega
    rintro ⟨other, same, -, kept⟩
    cases stands.symm.trans same
    cases skipped.symm.trans (isSkipped_eq_false_iff.mpr kept)
  | case4 start line rest nothing code =>
    have stands := Comment.getElem?_of_drop place
    have kept : isSkipped line = false := Bool.not_eq_true _ ▸ code
    have outside : ∀ block ∈ Comment.blocks lines, block.covers (start + 1) = false := by
      intro block member
      have other := Comment.firstLine_ne_of_code place nothing member
      have around := apart block member
      simp only [Comment.Block.covers, Bool.and_eq_false_iff, decide_eq_false_iff_not]
      omega
    refine ⟨.stops stands (blockFrom?_of_code place nothing) kept, Nat.le_refl start, ?_, ?_⟩
    · exact ⟨line, stands, outside, isSkipped_eq_false_iff.mp kept⟩
    · intro index after before
      omega

/-- The search for the code that a block belongs to comes to an end, and it stops at the first line
behind the block that lies in no block, is not blank and does not begin with a comment. It passes
all lines exactly when there is no such line. The block is attached to the declaration on the line
where the search stops. -/
theorem search_stops_at_code {lines : List Text} {block : Comment.Block}
    (member : block ∈ Comment.blocks lines) :
    let stop := (nextCode? block.lastLine (lines.drop block.lastLine)).map Prod.fst
    (∀ other, Searches lines (Comment.blocks lines) block.lastLine other ↔ other = stop) ∧
      IsFirstCode lines block.lastLine stop ∧
      (stop = none → afterBlock? lines block = none) ∧
      ∀ index, stop = some index → atIndex lines index = .ok (afterBlock? lines block) := by
  intro stop
  obtain ⟨searched, first⟩ := searches_nextCode? rfl (Comment.isApart_lastLine member)
  refine ⟨fun other => ⟨fun found => found.unique searched, ?_⟩, first, fun nowhere => ?_,
    fun index found => ?_⟩
  · rintro rfl
    exact searched
  · rw [afterBlock?, Option.map_eq_none_iff.mp nowhere]
    rfl
  · obtain ⟨⟨_, line, rest⟩, code, rfl⟩ := Option.map_eq_some_iff.mp found
    rw [afterBlock?, code, atIndex_of_drop (drop_of_nextCode? rfl code)]
    rfl

/-- Blocks in front of a function: the second has a line in it that reads as one. -/
def gateLines : List Text :=
  ["--- @within Gate", "", "-- not yet", "--[=[", "function Gate:close()", "]=]", "  ",
    "function Gate:open()"]

theorem search_stops_at_code_gate :
    ⟨1, 1, ["@within Gate"]⟩ ∈ Comment.blocks gateLines ∧
      (∀ other, Searches gateLines (Comment.blocks gateLines) 1 other ↔ other = some 7) ∧
      IsFirstCode gateLines 1 (some 7) ∧
      atIndex gateLines 7 = .ok (afterBlock? gateLines ⟨1, 1, ["@within Gate"]⟩) := by
  have member : ⟨1, 1, ["@within Gate"]⟩ ∈ Comment.blocks gateLines := by decide +kernel
  have stop : (nextCode? 1 (gateLines.drop 1)).map Prod.fst = some 7 := by decide +kernel
  obtain ⟨searched, first, -, attached⟩ := search_stops_at_code member
  exact ⟨member, stop ▸ searched, stop ▸ first, attached 7 stop⟩

end Declaration

end LuauReference
