/-
This file cuts texts into words, the stretches between blanks. A blank divides the words in front of
it from those behind it wherever it stands, so trimming does not change the words of a text, and
words with spaces between them are found again.
-/

import LuauReference.Proofs.Text.Blank
import LuauReference.Proofs.Text.Pieces

namespace LuauReference

namespace Text

/-- The words of a text: the stretches between its blanks. -/
def wordsOf (s : Text) : List Text :=
  (s.splitOnP isBlank).filter (!·.isEmpty)

theorem wordsOf_append_cons {c : Char} (blank : isBlank c = true) (front rest : Text) :
    wordsOf (front ++ c :: rest) = wordsOf front ++ wordsOf rest := by
  rw [wordsOf, List.splitOnP_append_cons _ _ blank, List.filter_append, wordsOf, wordsOf]

theorem wordsOf_cons {c : Char} (blank : isBlank c = true) (rest : Text) :
    wordsOf (c :: rest) = wordsOf rest :=
  wordsOf_append_cons blank [] rest

/-- A text without blanks is a word. -/
theorem wordsOf_of_solid {word : Text} (present : word ≠ [])
    (solid : ∀ c ∈ word, isBlank c = false) :
    wordsOf word = [word] := by
  rw [wordsOf, List.splitOnP_eq_singleton solid]
  simp [present]

theorem wordsOf_append_left {blanks : Text} (blank : isBlankText blanks = true) (s : Text) :
    wordsOf (blanks ++ s) = wordsOf s := by
  induction blanks with
  | nil => rfl
  | cons c rest inductionHypothesis =>
    obtain ⟨first, others⟩ := Bool.and_eq_true_iff.mp blank
    rw [List.cons_append, wordsOf_cons first, inductionHypothesis others]

theorem wordsOf_append_right {blanks : Text} (blank : isBlankText blanks = true) (s : Text) :
    wordsOf (s ++ blanks) = wordsOf s := by
  cases blanks with
  | nil => rw [List.append_nil]
  | cons c rest =>
    obtain ⟨first, others⟩ := Bool.and_eq_true_iff.mp blank
    have none : wordsOf rest = [] := by
      have whole := wordsOf_append_left others []
      rwa [List.append_nil] at whole
    rw [wordsOf_append_cons first, none, List.append_nil]

/-- Trimming keeps the words. -/
theorem wordsOf_trim (s : Text) : wordsOf (trim s) = wordsOf s := by
  have front : s = s.takeWhile isBlank ++ trimStart s := List.takeWhile_append_dropWhile.symm
  obtain ⟨blanks, blank, back⟩ := exists_trimEnd_append (trimStart s)
  conv_rhs => rw [front, wordsOf_append_left List.all_takeWhile, back, wordsOf_append_right blank]
  rfl

/-- A text that does not begin with a blank begins with a word, which a blank ends or the text
itself. -/
theorem exists_word {c : Char} (solid : isBlank c = false) (rest : Text) :
    ∃ word, word ≠ [] ∧ (∀ d ∈ word, isBlank d = false) ∧
      (c :: rest = word ∧ wordsOf (c :: rest) = [word] ∨
        ∃ d more, isBlank d = true ∧ c :: rest = word ++ d :: more ∧
          wordsOf (c :: rest) = word :: wordsOf more) := by
  have first : (c :: rest).takeWhile (!isBlank ·) ≠ [] := by
    rw [List.takeWhile_cons_of_pos (by rw [solid]; rfl)]
    exact List.cons_ne_nil _ _
  have each : ∀ d ∈ (c :: rest).takeWhile (!isBlank ·), isBlank d = false := fun d member => by
    simpa using List.mem_takeWhile_imp member
  have whole : (c :: rest).takeWhile (!isBlank ·) ++ (c :: rest).dropWhile (!isBlank ·) =
      c :: rest :=
    List.takeWhile_append_dropWhile
  have stopped := List.head?_dropWhile_not (!isBlank ·) (c :: rest)
  generalize (c :: rest).takeWhile (!isBlank ·) = word at first each whole
  refine ⟨word, first, each, ?_⟩
  cases tail : (c :: rest).dropWhile (!isBlank ·) with
  | nil =>
    rw [tail, List.append_nil] at whole
    exact Or.inl ⟨whole.symm, whole ▸ wordsOf_of_solid first each⟩
  | cons d more =>
    rw [tail] at whole stopped
    have blank : isBlank d = true := by simpa using stopped
    refine Or.inr ⟨d, more, blank, whole.symm, ?_⟩
    rw [← whole, wordsOf_append_cons blank, wordsOf_of_solid first each]
    rfl

theorem wordsOf_ne_nil {s : Text} {c : Char} (inside : c ∈ s) (solid : isBlank c = false) :
    wordsOf s ≠ [] := by
  induction s with
  | nil => cases inside
  | cons d rest inductionHypothesis =>
    cases blank : isBlank d with
    | true =>
      have later : c ∈ rest := (List.mem_cons.mp inside).resolve_left fun same => by
        rw [← same, solid] at blank
        cases blank
      exact wordsOf_cons blank rest ▸ inductionHypothesis later
    | false =>
      obtain ⟨word, _, _, ⟨_, words⟩ | ⟨_, _, _, _, words⟩⟩ := exists_word blank rest <;>
        exact words ▸ List.cons_ne_nil _ _

/-- Words with spaces between them are the words of what they make up together. -/
theorem wordsOf_join {words : List Text}
    (solid : ∀ word ∈ words, word ≠ [] ∧ ∀ c ∈ word, isBlank c = false) :
    wordsOf (join " " words) = words := by
  induction words with
  | nil => rfl
  | cons word rest inductionHypothesis =>
    obtain ⟨⟨present, here⟩, later⟩ := List.forall_mem_cons.mp solid
    by_cases last : rest = []
    · rw [last, join, wordsOf_of_solid present here]
    · have apart : join " " (word :: rest) = word ++ ' ' :: join " " rest := by
        rw [join_cons_of_ne_nil _ _ last, List.append_assoc]
        rfl
      rw [apart, wordsOf_append_cons (by decide), wordsOf_of_solid present here,
        inductionHypothesis later]
      rfl

end Text

end LuauReference
