/-
This file proves that a comment at the end of a line changes no declaration. Where the scan of a
line stops outside of quotes, a comment that is put behind the line is dropped again, and all that
can be left of it is the blank in front of it. A declaration is read from the code of its line
without the blanks at the end, and a table type reads its line a second time and keeps them; there
they stand behind the last brace or where the rest of the line is only counted.
-/

import LuauReference.Proofs.Declaration.Head
import LuauReference.Proofs.Declaration.Nesting
import LuauReference.Proofs.Declaration.Reader

namespace LuauReference

namespace Text

theorem notMem_of_isBlankText {blanks : Text} (blank : isBlankText blanks = true) {c : Char}
    (solid : isBlank c = false) : c ∉ blanks := fun member =>
  Bool.false_ne_true (solid.symm.trans (isBlank_of_mem blank c member))

end Text

namespace Declaration

/-! ### Comments behind a line -/

/-- The quote that is open where the scan of a line for a comment stops, at the comment or at the
end of the line, given the quote that is open at its head. -/
def openQuote : Option Char → Text → Option Char
  | some quote, '\\' :: _ :: rest => openQuote (some quote) rest
  | some quote, c :: rest => openQuote (if c = quote then none else some quote) rest
  | none, '-' :: '-' :: _ => none
  | none, c :: rest => openQuote (if isQuote c then some c else none) rest
  | quote, [] => quote

/-- A line with a comment behind it. -/
def withComment (line comment : Text) : Text :=
  line ++ " -- ".toList ++ comment

theorem withComment_cons (c : Char) (line comment : Text) :
    withComment (c :: line) comment = c :: withComment line comment := rfl

/-- In quotes a character that escapes none is kept, and the scan goes on behind it. -/
theorem dropComment_quoted {quote c : Char} {rest : Text}
    (noEscape : ∀ next tail, c = '\\' → rest = next :: tail → False) :
    dropComment (some quote) (c :: rest) =
      c :: dropComment (if c = quote then none else some quote) rest := by
  rw [dropComment]
  exact noEscape

/-- Outside of quotes a character that begins no comment is kept, and the scan goes on behind it. -/
theorem dropComment_code {c : Char} {rest : Text}
    (noComment : ∀ tail, c = '-' → rest = '-' :: tail → False) :
    dropComment none (c :: rest) = c :: dropComment (if isQuote c then some c else none) rest := by
  rw [dropComment]
  exact noComment

/-- A backslash at the end of a line escapes the blank behind it, but then a quote is still open
there. -/
theorem no_escape_withComment {quote c : Char} {rest : Text} (quoted : isQuote quote = true)
    (noEscape : ∀ next tail, c = '\\' → rest = next :: tail → False)
    (closed : openQuote (if c = quote then none else some quote) rest = none) (comment : Text) :
    ∀ next tail, c = '\\' → withComment rest comment = next :: tail → False := by
  rintro next tail rfl -
  cases rest with
  | cons next tail => exact noEscape next tail rfl rfl
  | nil =>
    have other : '\\' ≠ quote := by
      rintro rfl
      exact absurd quoted (by decide)
    rw [if_neg other] at closed
    cases closed

/-- No comment begins on the last character of a line, since a blank comes behind it. -/
theorem no_comment_withComment {c : Char} {rest : Text}
    (noComment : ∀ tail, c = '-' → rest = '-' :: tail → False) (comment : Text) :
    ∀ tail, c = '-' → withComment rest comment = '-' :: tail → False := by
  rintro tail rfl begins
  cases rest with
  | cons next tail => exact noComment tail rfl (congrArg (· :: tail) (List.cons.inj begins).1)
  | nil => cases (List.cons.inj begins).1

/-- A comment behind a line leaves a blank of it at most. -/
theorem dropComment_withComment {quote : Option Char} {line : Text}
    (quoted : ∀ open_ ∈ quote, isQuote open_ = true) (closed : openQuote quote line = none)
    (comment : Text) : ∃ blanks, Text.isBlankText blanks = true ∧
      dropComment quote (withComment line comment) = dropComment quote line ++ blanks := by
  fun_induction openQuote quote line with
  | case1 quote c rest inductionHypothesis =>
    obtain ⟨blanks, blank, dropped⟩ := inductionHypothesis quoted closed
    refine ⟨blanks, blank, ?_⟩
    rw [withComment_cons, withComment_cons, dropComment, dropped, dropComment]
    rfl
  | case2 quote c rest noEscape inductionHypothesis =>
    have quotedLater : ∀ open_ ∈ if c = quote then none else some quote, isQuote open_ = true := by
      split
      · nofun
      · exact quoted
    obtain ⟨blanks, blank, dropped⟩ := inductionHypothesis quotedLater closed
    have noEscapeLater := no_escape_withComment (quoted quote rfl) noEscape closed comment
    refine ⟨blanks, blank, ?_⟩
    rw [withComment_cons, dropComment_quoted noEscapeLater, dropped, dropComment_quoted noEscape]
    rfl
  | case3 rest => exact ⟨[], rfl, rfl⟩
  | case4 c rest noComment inductionHypothesis =>
    have quotedLater :
        ∀ open_ ∈ if isQuote c = true then some c else none, isQuote open_ = true := by
      split
      · next begins =>
        rintro open_ ⟨⟩
        exact begins
      · nofun
    obtain ⟨blanks, blank, dropped⟩ := inductionHypothesis quotedLater closed
    refine ⟨blanks, blank, ?_⟩
    rw [withComment_cons, dropComment_code (no_comment_withComment noComment comment), dropped,
      dropComment_code noComment]
    rfl
  | case5 quote =>
    subst closed
    exact ⟨[' '], rfl, rfl⟩

/-- Whether the scan of a line for a comment stops outside of quotes. -/
def IsClosed (line : Text) : Prop :=
  openQuote none line = none

instance (line : Text) : Decidable (IsClosed line) :=
  inferInstanceAs (Decidable (openQuote none line = none))

example : IsClosed "Gate.mark = \"a -- b\" -- isn't" ∧
    ¬ IsClosed "Gate.mark = \"a \\\" -- b" := by decide

theorem IsClosed.codeOf_withComment {line : Text} (closed : IsClosed line) (comment : Text) :
    ∃ blanks, Text.isBlankText blanks = true ∧
      codeOf (withComment line comment) = codeOf line ++ blanks :=
  dropComment_withComment (by rintro _ ⟨⟩) closed comment

/-! ### Table types -/

/-- A line that closes the braces it opens has a closing one. -/
theorem mem_of_braceBalance {head : Text} (closes : 1 + braceBalance head ≤ 0) : '\x7d' ∈ head := by
  rw [braceBalance, Text.tally, Text.tally] at closes
  exact List.count_pos_iff.mp (by omega)

theorem beforeLastBrace_append {head blanks : Text} (blank : Text.isBlankText blanks = true)
    (closing : '\x7d' ∈ head) : beforeLastBrace (head ++ blanks) = beforeLastBrace head := by
  have missing : '\x7d' ∉ blanks := Text.notMem_of_isBlankText blank (by decide)
  rw [beforeLastBrace, Text.cutLast?_append missing, beforeLastBrace]
  cases found : Text.cutLast? '\x7d' head with
  | some sides => rfl
  | none =>
    rw [Text.cutLast?] at found
    split at found
    · cases found
    · next nothing => exact absurd (List.mem_reverse.mpr closing) (Text.notMem_of_cut? nothing)

/-- Blanks behind the code of a line do not matter to the table type that opens on it. -/
theorem table_of_codeOf {line other blanks : Text} (blank : Text.isBlankText blanks = true)
    (code : codeOf other = codeOf line ++ blanks) (index : Nat) (rest : List Text) :
    table index other rest = table index line rest := by
  have missing : '\x7b' ∉ blanks := Text.notMem_of_isBlankText blank (by decide)
  rw [table, code, table]
  cases found : Text.cut? "\x7b" (codeOf line) with
  | none =>
    have nothing : Text.cut? "\x7b" (codeOf line ++ blanks) = none :=
      Text.cut?_of_notMem fun member =>
      (List.mem_append.mp member).elim (Text.notMem_of_cut? found) missing
    rw [nothing]
  | some sides =>
    have longer : Text.cut? "\x7b" (codeOf line ++ blanks) = some (sides.1, sides.2 ++ blanks) :=
      Text.cut?_longer blanks found
    rw [longer]
    dsimp only
    rw [braceBalance_append, braceBalance_of_isBlankText blank, Int.add_zero]
    split
    · next closes => rw [beforeLastBrace_append blank (mem_of_braceBalance closes)]
    · rfl

/-! ### Declarations -/

theorem shapeAt?_withComment {line : Text} (closed : IsClosed line) (comment : Text) (index : Nat)
    (rest : List Text) :
    shapeAt? index (withComment line comment) rest = shapeAt? index line rest := by
  obtain ⟨blanks, blank, code⟩ := closed.codeOf_withComment comment
  rw [shapeAt?, table_of_codeOf blank code, code, Text.trimEnd_append blank, shapeAt?]

/-- A comment at the end of a line changes nothing of the declaration on it but the text of its
line. -/
theorem comment_changes_no_declaration {lines : List Text} {index : Nat} {line : Text}
    (stands : lines[index]? = some line) (closed : IsClosed line) (comment : Text) :
    atIndex (lines.set index (withComment line comment)) index =
      (atIndex lines index).map
        (Option.map fun declaration => { declaration with line := withComment line comment }) := by
  obtain ⟨bounded, -⟩ := List.getElem?_eq_some_iff.mp stands
  obtain ⟨rest, place⟩ := Comment.exists_drop_of_getElem? stands
  have placeLater : (lines.set index (withComment line comment)).drop index =
      withComment line comment :: rest := by
    have later : lines.drop (index + 1) = rest := Comment.drop_further place 0
    rw [List.drop_eq_getElem_cons (by simpa using bounded), List.getElem_set_self,
      List.drop_set_of_lt (Nat.lt_succ_self index), later]
  rw [atIndex_of_drop placeLater, atIndex_of_drop place]
  refine congrArg Except.ok ?_
  rw [declarationAt?, shapeAt?_withComment closed, declarationAt?, Option.map_map]
  rfl

/-- A table type on several lines, on the first of which a quoted text looks like a comment. -/
def signLines : List Text :=
  ["type Sign = \x7b mark: \"--\",", "  text: string,", "\x7d"]

theorem comment_changes_no_declaration_sign :
    signLines[0]? = some "type Sign = \x7b mark: \"--\",".toList ∧
      IsClosed "type Sign = \x7b mark: \"--\"," ∧
      atIndex (signLines.set 0 (withComment "type Sign = \x7b mark: \"--\"," "isn't \x7d")) 0 =
        .ok (some ⟨.type "Sign" [⟨"text", some "string".toList, none, some 2⟩] 3, 1,
          withComment "type Sign = \x7b mark: \"--\"," "isn't \x7d"⟩) := by
  have closed : IsClosed "type Sign = \x7b mark: \"--\"," := by decide
  have read : atIndex signLines 0 =
      .ok (some ⟨.type "Sign" [⟨"text", some "string".toList, none, some 2⟩] 3,
      1, "type Sign = \x7b mark: \"--\",".toList⟩) := by decide +kernel
  refine ⟨rfl, closed, ?_⟩
  rw [comment_changes_no_declaration rfl closed, read]
  rfl

end Declaration

end LuauReference
