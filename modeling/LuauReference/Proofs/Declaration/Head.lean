/-
This file treats the heads of declarations, which are read up to a character that decides: a
parenthesis, a brace or an equals sign. What stands behind that character does not matter, so a head
that is found in the front of a line is found in the whole line. A keyword is told from a name by
the blank behind it, and a name that is read where a keyword stands is that keyword.
-/

import LuauReference.Declaration.Reader
import LuauReference.Proofs.Text.Blank
import LuauReference.Proofs.Text.Cut

namespace LuauReference

namespace Text

theorem isWordChar_of_isBlank (c : Char) (blank : isBlank c = true) : isWordChar c = false :=
  Bool.not_eq_true _ ▸ fun word =>
    Bool.false_ne_true ((isBlank_of_isWordChar word).symm.trans blank)

/-! ### Longer texts -/

section

variable {s rest : Text} (tail : Text)

theorem after?_longer {mark : Text} (found : after? mark s = some rest) :
    after? mark (s ++ tail) = some (rest ++ tail) := by
  rw [after?_eq_some_iff] at found ⊢
  rw [found, List.append_assoc]

theorem trimStart_longer (present : trimStart s ≠ []) :
    trimStart (s ++ tail) = trimStart s ++ tail := by
  have kept : (s.dropWhile isBlank).isEmpty = false := List.isEmpty_eq_false_iff.mpr present
  rw [trimStart, List.dropWhile_append, kept, if_neg Bool.false_ne_true]
  rfl

theorem run?_longer {start more : Char → Bool} {front : Text}
    (found : run? start more s = some (front, rest))
    (present : rest ≠ []) : run? start more (s ++ tail) = some (front, rest ++ tail) := by
  cases s with
  | nil => cases found
  | cons c s =>
    rw [run?] at found
    split at found
    · next begins =>
      obtain ⟨rfl, rfl⟩ := Prod.mk.inj (Option.some.inj found)
      have kept : (s.dropWhile more).isEmpty = false := List.isEmpty_eq_false_iff.mpr present
      have shorter : (s.takeWhile more).length ≠ s.length := fun same =>
        present (List.dropWhile_eq_nil_iff.mpr (List.takeWhile_eq_self_iff.mp
          ((List.takeWhile_prefix more).eq_of_length same)))
      rw [List.cons_append, run?, if_pos begins, List.takeWhile_append, if_neg shorter,
        List.dropWhile_append, kept, if_neg Bool.false_ne_true]
    · cases found

theorem cut?_longer {mark : Char} {front : Text} (found : cut? [mark] s = some (front, rest)) :
    cut? [mark] (s ++ tail) = some (front, rest ++ tail) := by
  have cut := isCut_of_cut? found
  have missing : mark ∉ front := by
    intro member
    obtain ⟨before, after, rfl⟩ := List.append_of_mem member
    have shorter := cut.first before ⟨after ++ [mark] ++ rest, by rw [cut.whole]; simp⟩
    rw [List.length_append, List.length_cons] at shorter
    omega
  have whole : s ++ tail = front ++ mark :: (rest ++ tail) := by
    rw [cut.whole]
    simp
  rw [whole, cut?_append_cons missing]

end

end Text

namespace Declaration

/-! ### Keywords -/

theorem afterKeyword?_eq_some_iff {keyword s rest : Text} : afterKeyword? keyword s = some rest ↔
    ∃ c tail, s = keyword ++ c :: tail ∧ Text.isBlank c = true ∧ Text.trimStart tail = rest := by
  constructor
  · intro found
    rw [afterKeyword?] at found
    split at found
    · next c tail behind =>
      rw [Option.ite_none_right_eq_some] at found
      exact ⟨c, tail, Text.after?_eq_some_iff.mp behind, found.1, Option.some.inj found.2⟩
    · cases found
  · rintro ⟨c, tail, whole, blank, rfl⟩
    rw [afterKeyword?, Text.after?_eq_some_iff.mpr whole]
    dsimp only
    rw [if_pos blank]

/-- A keyword does not stand in a text that begins with another character. -/
theorem afterKeyword?_of_ne {first : Char} {c : Char} (other : first ≠ c) (keyword s : Text) :
    afterKeyword? (first :: keyword) (c :: s) = none := by
  rw [afterKeyword?, Text.after?, if_neg other]

theorem afterKeyword?_longer {keyword s rest : Text} (found : afterKeyword? keyword s = some rest)
    (present : rest ≠ []) (tail : Text) :
    afterKeyword? keyword (s ++ tail) = some (rest ++ tail) := by
  obtain ⟨c, behind, rfl, blank, rfl⟩ := afterKeyword?_eq_some_iff.mp found
  refine afterKeyword?_eq_some_iff.mpr ⟨c, behind ++ tail, by simp, blank, ?_⟩
  exact Text.trimStart_longer tail present

/-! ### Names in place of keywords -/

section

variable {keyword s rest : Text} (identifier : Text.isIdentifier keyword = true)
  (found : afterKeyword? keyword s = some rest)

include identifier found

/-- A name that is read where a keyword stands is that keyword. -/
theorem run?_of_afterKeyword? {more : Char → Bool}
    (words : ∀ c, Text.isWordChar c = true → more c = true)
    (blanks : ∀ c, Text.isBlank c = true → more c = false) :
    ∃ tail, Text.run? Text.isWordStart more s = some (keyword, tail) ∧
      Text.trimStart tail = rest := by
  obtain ⟨c, tail, rfl, blank, rfl⟩ := afterKeyword?_eq_some_iff.mp found
  obtain ⟨first, others, rfl, begins⟩ := Text.exists_cons_of_isIdentifier identifier
  have inside : ∀ d ∈ others, more d = true := fun d member =>
    words d (Text.isWordChar_of_mem identifier d (List.mem_cons_of_mem _ member))
  have stop : ¬ more c = true := by
    rw [blanks c blank]
    exact Bool.false_ne_true
  refine ⟨c :: tail, ?_, List.dropWhile_cons_of_pos blank⟩
  rw [List.cons_append, Text.run?, if_pos begins, List.takeWhile_append_of_pos inside,
    List.dropWhile_append_of_pos inside, List.takeWhile_cons_of_neg stop,
    List.dropWhile_cons_of_neg stop,
    List.append_nil]

theorem identifier?_of_afterKeyword? :
    ∃ tail, Text.identifier? s = some (keyword, tail) ∧ Text.trimStart tail = rest :=
  run?_of_afterKeyword? identifier found (fun _ => id) Text.isWordChar_of_isBlank

theorem path_of_afterKeyword? :
    ∃ tail, Text.run? Text.isWordStart isDottedChar s = some (keyword, tail) ∧
      Text.trimStart tail = rest := by
  refine run?_of_afterKeyword? identifier found (fun c word => ?words) fun c blank => ?blanks
  case words => rw [isDottedChar, word, Bool.true_or]
  case blanks =>
    have noDot : c ≠ '.' := by
      rintro rfl
      cases blank
    rw [isDottedChar, Text.isWordChar_of_isBlank c blank, beq_false_of_ne noDot, Bool.or_false]

end

/-! ### Heads of table types -/

/-- What stands behind the type parameters does not matter once they have ended. -/
theorem skipGenerics_longer {s value : Text}
    (assigned : Text.after? "=" (skipGenerics s) = some value)
    (tail : Text) : skipGenerics (s ++ tail) = skipGenerics s ++ tail := by
  have nothing : Text.after? "=" [] = none := rfl
  have present : Text.trimStart s ≠ [] := by
    intro empty
    rw [skipGenerics, empty, nothing] at assigned
    cases assigned
  rw [skipGenerics] at assigned ⊢
  rw [skipGenerics, Text.trimStart_longer tail present]
  split at assigned
  · next rest generic =>
    rw [generic, List.cons_append]
    split at assigned
    · next front behind closed =>
      have solid : Text.trimStart behind ≠ [] := by
        intro empty
        rw [empty, nothing] at assigned
        cases assigned
      have closedLonger : Text.cut? ">" (rest ++ tail) = some (front, behind ++ tail) :=
        Text.cut?_longer tail closed
      simp only [closedLonger]
      exact Text.trimStart_longer tail solid
    · cases assigned
  · next plain =>
    obtain ⟨c, rest, whole⟩ := List.exists_cons_of_ne_nil present
    have other : c ≠ '<' := by
      rintro rfl
      exact plain rest whole
    rw [whole, List.cons_append]
    split
    · next same => exact absurd (List.cons.inj same).1 other
    · rfl

/-- The keyword of an export is skipped in a longer line as in the line itself, in front of a
type. -/
theorem skipKeyword_longer {s rest : Text}
    (found : afterKeyword? "type" (skipKeyword "export" s) = some rest) (tail : Text) :
    skipKeyword "export" (s ++ tail) = skipKeyword "export" s ++ tail := by
  rw [skipKeyword] at found ⊢
  rw [skipKeyword]
  cases exported : afterKeyword? "export" s with
  | some behind =>
    rw [exported] at found
    have present : behind ≠ [] := by
      rintro rfl
      cases found
    rw [afterKeyword?_longer exported present]
    rfl
  | none =>
    rw [exported] at found
    obtain ⟨c, behind, rfl, -⟩ := afterKeyword?_eq_some_iff.mp found
    have other : afterKeyword? "export" ("type".toList ++ c :: behind ++ tail) = none :=
      afterKeyword?_of_ne (by decide) _ _
    rw [other]
    rfl

/-- The head of a table type in the front of a line is one of the whole line. -/
theorem tableHead?_longer {line name : Text} (found : tableHead? line = some name) (tail : Text) :
    tableHead? (line ++ tail) = some name := by
  simp only [tableHead?, Option.bind_eq_bind, Option.bind_eq_some_iff, Option.pure_def,
    Option.some.injEq] at found
  obtain ⟨afterType, typed, ⟨name, behind⟩, named, value, assigned, braced, opened, rfl⟩ := found
  have presentLine : Text.trimStart line ≠ [] := by
    intro empty
    rw [empty] at typed
    cases typed
  have presentType : afterType ≠ [] := by
    rintro rfl
    cases named
  have presentName : behind ≠ [] := by
    rintro rfl
    cases assigned
  have presentValue : Text.trimStart value ≠ [] := by
    intro empty
    rw [empty] at opened
    cases opened
  rw [tableHead?, Text.trimStart_longer tail presentLine, skipKeyword_longer typed,
    afterKeyword?_longer typed presentType, Option.bind_eq_bind, Option.bind_some, Text.identifier?,
    Text.run?_longer tail named presentName, Option.bind_eq_bind, Option.bind_some]
  dsimp only
  rw [skipGenerics_longer assigned, Text.after?_longer tail assigned, Option.bind_some,
    Text.trimStart_longer tail presentValue, Text.after?_longer tail opened]
  rfl

end Declaration

end LuauReference
