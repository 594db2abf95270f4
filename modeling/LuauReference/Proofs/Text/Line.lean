/-
This file says what happens to the ends of lines. A source text has no more and no longer lines than
it has characters for, and a text file is read without a carriage return, so that only a text
without one is read as it was written. A text of documentation is cut at every line end of Unicode.
These are blank, so that a text whose lines are all blank is blank, and all others have a first
line.
-/

import LuauReference.Proofs.Text.Blank
import LuauReference.Proofs.Text.Pieces

namespace LuauReference

namespace Text

/-! ### Lines of source texts -/

theorem length_joinReturns_le (s : Text) : (sourceLines.joinReturns s).length ≤ s.length := by
  fun_induction sourceLines.joinReturns s with
  | case1 rest inductionHypothesis =>
    exact Nat.le_succ_of_le (Nat.succ_le_succ inductionHypothesis)
  | case2 c rest alone inductionHypothesis => exact Nat.succ_le_succ inductionHypothesis
  | case3 => exact Nat.le_refl 0

theorem length_sourceLines_le (s : Text) : (sourceLines s).length ≤ s.length + 1 :=
  Nat.le_trans (length_pieces_le _ _) (Nat.succ_le_succ (length_joinReturns_le s))

theorem length_le_of_mem_sourceLines {s line : Text} (member : line ∈ sourceLines s) :
    line.length ≤ s.length :=
  Nat.le_trans (length_le_of_mem_pieces member) (length_joinReturns_le s)

/-! ### Texts of files -/

/-- A text without a carriage return is read as it was written. -/
theorem plainNewlines_of_notMem {s : Text} (unbroken : '\r' ∉ s) : plainNewlines s = s := by
  induction s with
  | nil => rw [plainNewlines]
  | cons c rest inductionHypothesis =>
    rw [List.mem_cons, not_or] at unbroken
    rw [plainNewlines, if_neg (Ne.symm unbroken.1), inductionHypothesis unbroken.2]
    rintro more rfl
    exact absurd rfl unbroken.1

/-- A text that was read has no carriage return. -/
theorem return_notMem_plainNewlines (s : Text) : '\r' ∉ plainNewlines s := by
  fun_induction plainNewlines s with
  | case1 rest inductionHypothesis => simpa using inductionHypothesis
  | case2 c rest _ inductionHypothesis =>
    rw [List.mem_cons, not_or]
    refine ⟨?_, inductionHypothesis⟩
    split
    · decide
    · next other => exact Ne.symm other
  | case3 => exact List.not_mem_nil

/-! ### Lines of documentation -/

/-- Whether a text ends a line: a single line end, or a carriage return with the line feed behind
it. -/
inductive IsBreak : Text → Prop
  | pair : IsBreak ['\r', '\n']
  | single {c : Char} (ends : isLineEnd c = true) : IsBreak [c]

/-- Whether a text is cut into lines: none of them has a line end in it, and a break stands behind
each of them but the last, which may go without one when it is not empty. A carriage return is not
cut off from the line feed behind it. -/
inductive AreLines : Text → List Text → Prop
  | nil : AreLines [] []
  | last {line : Text} (present : line ≠ []) (whole : ∀ c ∈ line, isLineEnd c = false) :
      AreLines line [line]
  | cons {line mark rest : Text} {lines : List Text} (whole : ∀ c ∈ line, isLineEnd c = false)
      (ends : IsBreak mark) (together : mark = ['\r'] → rest.head? ≠ some '\n')
      (later : AreLines rest lines) : AreLines (line ++ mark ++ rest) (line :: lines)

/-- Going on with a line cuts the whole of that line and the rest. -/
theorem areLines_collect {line : Text} (whole : ∀ c ∈ line, isLineEnd c = false) (s : Text) :
    AreLines (line.reverse ++ s) (lines.collect line s) := by
  have turned {front : Text} (each : ∀ c ∈ front, isLineEnd c = false) :
      ∀ c ∈ front.reverse, isLineEnd c = false :=
        fun c member => each c (List.mem_reverse.mp member)
  fun_induction lines.collect line s with
  | case1 line empty =>
    rw [List.isEmpty_iff.mp empty]
    exact .nil
  | case2 line present =>
    rw [List.append_nil]
    exact .last (by simpa using present) (turned whole)
  | case3 line rest inductionHypothesis =>
    have cut :=
      AreLines.cons (turned whole) .pair nofun (inductionHypothesis (List.forall_mem_nil _))
    simpa using cut
  | case4 line c rest alone ends inductionHypothesis =>
    have together : [c] = ['\r'] → rest.head? ≠ some '\n' := by
      rintro ⟨⟩ follows
      obtain ⟨tail, rfl⟩ := List.head?_eq_some_iff.mp follows
      exact alone tail rfl rfl
    have cut := AreLines.cons (turned whole) (.single ends) together
      (inductionHypothesis (List.forall_mem_nil _))
    simpa using cut
  | case5 line c rest alone inside inductionHypothesis =>
    have longer := inductionHypothesis
      (List.forall_mem_cons.mpr ⟨Bool.eq_false_iff.mpr inside, whole⟩)
    simpa using longer

theorem areLines_lines (s : Text) : AreLines s (lines s) :=
  areLines_collect (List.forall_mem_nil _) s

theorem isBlank_of_isLineEnd {c : Char} (ends : isLineEnd c = true) : isBlank c = true := by
  simp only [isLineEnd, Bool.or_eq_true, Bool.and_eq_true, decide_eq_true_eq, beq_iff_eq] at ends
  simp only [isBlank, blankRanges, List.any_cons, List.any_nil, Bool.or_false, Bool.or_eq_true,
    Bool.and_eq_true, decide_eq_true_eq]
  omega

theorem isBlankText_of_isBreak {mark : Text} (ends : IsBreak mark) : isBlankText mark = true := by
  cases ends with
  | pair => decide
  | single ends => rw [isBlankText, List.all_cons, isBlank_of_isLineEnd ends, List.all_nil]; rfl

/-- A text whose lines are all blank is blank. -/
theorem AreLines.isBlankText {s : Text} {lines : List Text} (cut : AreLines s lines)
    (blank : ∀ line ∈ lines, isBlankText line = true) : isBlankText s = true := by
  induction cut with
  | nil => rfl
  | last => exact blank _ List.mem_cons_self
  | cons _ ends _ _ inductionHypothesis =>
    obtain ⟨first, later⟩ := List.forall_mem_cons.mp blank
    rw [Text.isBlankText, List.all_append, List.all_append, Bool.and_eq_true, Bool.and_eq_true]
    exact ⟨⟨first, isBlankText_of_isBreak ends⟩, inductionHypothesis later⟩

/-- A text that is not blank has a first line that is not blank. -/
theorem exists_firstLine {s : Text} (solid : isBlankText s = false) :
    ∃ before line after, lines s = before ++ line :: after ∧
      (∀ other ∈ before, isBlankText other = true) ∧ isBlankText line = false ∧
      firstLine s = trim line := by
  cases found : (lines s).find? (!isBlankText ·) with
  | none =>
    have blank : ∀ line ∈ lines s, isBlankText line = true := by
      simpa using List.find?_eq_none.mp found
    rw [(areLines_lines s).isBlankText blank] at solid
    cases solid
  | some line =>
    obtain ⟨stops, before, after, whole, passed⟩ := List.find?_eq_some_iff_append.mp found
    refine ⟨before, line, after, whole, by simpa using passed, by simpa using stops, ?_⟩
    rw [firstLine, found]

end Text

end LuauReference
