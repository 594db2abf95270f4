/-
This file treats single lines of code. Where a line has neither quotes nor two hyphens in a row,
dropping the comment at its end passes over it and goes on behind it, so a line may be put together
from such pieces as long as no hyphens meet where they join.
-/

import LuauReference.Declaration.Brackets
import LuauReference.Proofs.Text.Blank

namespace LuauReference

namespace Declaration

/-- What begins a comment. -/
def commentMark : Text := "--"

/-- The piece in front of a comment, or of further code, is kept as it is. -/
theorem dropComment_append {front : Text} (unquoted : front.any isQuote = false)
    (uncommented : ¬ commentMark <:+: front) {s : Text}
    (apart : front.getLast? ≠ some '-' ∨ s.head? ≠ some '-') :
    dropComment none (front ++ s) = front ++ dropComment none s := by
  induction front with
  | nil => rfl
  | cons c front inductionHypothesis =>
    rw [List.any_cons, Bool.or_eq_false_iff] at unquoted
    have later : ¬ commentMark <:+: front := fun inside => uncommented (List.infix_cons inside)
    have single : ∀ rest, c :: (front ++ s) ≠ '-' :: '-' :: rest := by
      intro rest same
      obtain ⟨rfl, behind⟩ := List.cons.inj same
      cases front with
      | nil =>
        rcases apart with ends | begins
        · exact ends rfl
        · exact begins (congrArg List.head? behind)
      | cons d front =>
        obtain ⟨rfl, -⟩ := List.cons.inj behind
        exact uncommented ⟨[], front, rfl⟩
    have apart : front.getLast? ≠ some '-' ∨ s.head? ≠ some '-' := by
      refine apart.imp_left fun ends last => ends ?_
      rw [List.getLast?_cons, last]
      rfl
    rw [List.cons_append, dropComment, unquoted.1, if_neg Bool.false_ne_true,
      inductionHypothesis unquoted.2 later apart, List.cons_append]
    intro rest head tail
    exact single rest (by rw [head, tail])

/-! ### Ordinary characters -/

/-- Whether a character begins neither a quoted string nor a comment. -/
def isOrdinary (c : Char) : Bool :=
  !isQuote c && c != '-'

/-- Text of ordinary characters is kept, whatever follows. -/
theorem dropComment_append_of_ordinary {front : Text} (ordinary : front.all isOrdinary = true)
    (s : Text) :
    dropComment none (front ++ s) = front ++ dropComment none s := by
  have each : ∀ c ∈ front, isQuote c = false ∧ c ≠ '-' := fun c member => by
    simpa [isOrdinary] using List.all_eq_true.mp ordinary c member
  have missing : '-' ∉ front := fun member => (each _ member).2 rfl
  have uncommented : ¬ commentMark <:+: front :=
    fun inside => missing (inside.subset List.mem_cons_self)
  have unquoted : front.any isQuote = false :=
    List.any_eq_false.mpr fun c member => Bool.not_eq_true _ ▸ (each c member).1
  exact dropComment_append unquoted uncommented
    (Or.inl fun last => missing (List.mem_of_getLast? last))

/-- The characters that are not ordinary. -/
def marking : Text := ['\x27', '"', '\x60', '-']

/-- A class that has none of them is a class of ordinary characters. -/
theorem all_isOrdinary_of_class {test : Char → Bool} (fails : marking.all (!test ·) = true)
    {s : Text}
    (inside : ∀ c ∈ s, test c = true) : s.all isOrdinary = true := by
  refine List.all_eq_true.mpr fun c member => ?_
  have other : c ∉ marking := fun listed => by
    have failed := List.all_eq_true.mp fails c listed
    rw [inside c member] at failed
    cases failed
  simpa [marking, isOrdinary, isQuote, and_assoc] using other

theorem all_isOrdinary_of_isBlankText {s : Text} (blank : Text.isBlankText s = true) :
    s.all isOrdinary = true :=
  all_isOrdinary_of_class (by decide) (Text.isBlank_of_mem blank)

theorem all_isOrdinary_of_isIdentifier {name : Text} (identifier : Text.isIdentifier name = true) :
    name.all isOrdinary = true :=
  all_isOrdinary_of_class (by decide) (Text.isWordChar_of_mem identifier)

/-- A comment that begins a line leaves nothing of it but blanks. -/
theorem isBlankText_codeOf {line rest : Text} (comment : Text.trimStart line = '-' :: '-' :: rest) :
    Text.isBlankText (codeOf line) = true := by
  have blank : Text.isBlankText (line.takeWhile Text.isBlank) = true := List.all_takeWhile
  have whole : line = line.takeWhile Text.isBlank ++ '-' :: '-' :: rest := by
    rw [← comment, Text.trimStart, List.takeWhile_append_dropWhile]
  have kept : codeOf line = line.takeWhile Text.isBlank := by
    rw [codeOf]
    conv_lhs => rw [whole]
    rw [dropComment_append_of_ordinary (all_isOrdinary_of_isBlankText blank), dropComment,
      List.append_nil]
  rw [kept, blank]

/-! ### Keywords -/

/-- What stands behind a keyword and a blank follows it. -/
theorem afterKeyword?_append (keyword : Text) {first : Text} (solid : Text.IsTrimmed first)
    (rest : Text) :
    afterKeyword? keyword (keyword ++ ' ' :: (first ++ rest)) = some (first ++ rest) := by
  have behind : Text.after? keyword (keyword ++ ' ' :: (first ++ rest)) =
      some (' ' :: (first ++ rest)) :=
    Text.after?_eq_some_iff.mpr rfl
  rw [afterKeyword?, behind]
  dsimp only
  rw [if_pos (by decide), solid.trimStart_append]

end Declaration

end LuauReference
