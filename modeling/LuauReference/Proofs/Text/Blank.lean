/-
This file treats blanks at the ends of texts. Trimming takes them away, so a text may be put between
blanks without a change to what it is once it is trimmed, and a mark without blanks begins a trimmed
text exactly when it begins the text behind its first blanks. A text that is trimmed keeps its ends
wherever it stands.
-/

import LuauReference.Proofs.Text.Identifier
import Mathlib.Data.List.DropRight

namespace LuauReference

namespace Text

/-! ### Blank texts -/

theorem isBlank_of_mem {s : Text} (blank : isBlankText s = true) : ∀ c ∈ s, isBlank c = true :=
  List.all_eq_true.mp blank

theorem trimStart_of_isBlankText {s : Text} (blank : isBlankText s = true) : trimStart s = [] :=
  List.dropWhile_eq_nil_iff.mpr (isBlank_of_mem blank)

theorem trimEnd_of_isBlankText {s : Text} (blank : isBlankText s = true) : trimEnd s = [] := by
  have backwards : s.reverse.dropWhile isBlank = [] :=
    List.dropWhile_eq_nil_iff.mpr fun c member =>
      isBlank_of_mem blank c (List.mem_reverse.mp member)
  rw [trimEnd, dropEndWhile, backwards, List.reverse_nil]

theorem trim_of_isBlankText {s : Text} (blank : isBlankText s = true) : trim s = [] := by
  rw [trim, trimStart_of_isBlankText blank]
  rfl

/-- A text that is not blank has something left when it is trimmed at its head. -/
theorem trimStart_ne_nil {s : Text} (solid : isBlankText s = false) : trimStart s ≠ [] :=
  fun nothing =>
  Bool.false_ne_true <| solid.symm.trans <|
    List.all_eq_true.mpr (List.dropWhile_eq_nil_iff.mp nothing)

/-! ### Blanks in front and behind -/

section

variable {blanks : Text} (blank : isBlankText blanks = true)

include blank

theorem trimStart_append (s : Text) : trimStart (blanks ++ s) = trimStart s :=
  List.dropWhile_append_of_pos (isBlank_of_mem blank)

theorem trim_append_left (s : Text) : trim (blanks ++ s) = trim s := by
  rw [trim, trimStart_append blank, trim]

theorem trimEnd_append (s : Text) : trimEnd (s ++ blanks) = trimEnd s := by
  have backwards : ∀ c ∈ blanks.reverse, isBlank c = true := fun c member =>
    isBlank_of_mem blank c (List.mem_reverse.mp member)
  rw [trimEnd, dropEndWhile, List.reverse_append, List.dropWhile_append_of_pos backwards]
  rfl

theorem trim_append_right (s : Text) : trim (s ++ blanks) = trim s := by
  cases solid : isBlankText s with
  | true =>
    have whole : isBlankText (s ++ blanks) = true := by
      rw [isBlankText, List.all_append, Bool.and_eq_true]
      exact ⟨solid, blank⟩
    rw [trim_of_isBlankText whole, trim_of_isBlankText solid]
  | false =>
    have kept : (trimStart s).isEmpty = false :=
      List.isEmpty_eq_false_iff.mpr (trimStart_ne_nil solid)
    rw [trimStart] at kept
    rw [trim, trimStart, List.dropWhile_append, kept, if_neg Bool.false_ne_true,
      trimEnd_append blank]
    rfl

end

/-! ### Texts that are trimmed -/

theorem trimEnd_trimEnd (s : Text) : trimEnd (trimEnd s) = trimEnd s := by
  simp only [trimEnd, dropEndWhile, List.reverse_reverse, List.dropWhile_idempotent]

/-- A text that ends without a blank is not blank unless it is empty. -/
theorem isBlankText_of_trimEnd_eq {s : Text} (kept : trimEnd s = s) (present : s ≠ []) :
    isBlankText s = false := by
  by_contra blank
  exact present (kept.symm.trans (trimEnd_of_isBlankText (Bool.not_eq_false _ ▸ blank)))

theorem isBlankText_of_trimEnd_eq_nil {s : Text} (nothing : trimEnd s = []) :
    isBlankText s = true := by
  rw [trimEnd, dropEndWhile, List.reverse_eq_nil_iff, List.dropWhile_eq_nil_iff] at nothing
  exact List.all_eq_true.mpr fun c member => nothing c (List.mem_reverse.mpr member)

/-- A text that is not blank has something left when it is trimmed. -/
theorem trim_ne_nil {s : Text} (solid : isBlankText s = false) : trim s ≠ [] := by
  intro nothing
  have again : trimStart (trimStart s) = [] :=
    trimStart_of_isBlankText (isBlankText_of_trimEnd_eq_nil nothing)
  rw [trimStart, trimStart, List.dropWhile_idempotent] at again
  exact trimStart_ne_nil solid again

theorem length_trimEnd_le (s : Text) : (trimEnd s).length ≤ s.length := by
  have shorter := (List.dropWhile_suffix isBlank (l := s.reverse)).length_le
  rwa [List.length_reverse, ← List.length_reverse] at shorter

/-- Trimming at the end does not reach in front of a character that is not blank. -/
theorem trimEnd_append_cons {c : Char} (solid : isBlank c = false) (front tail : Text) :
    trimEnd (front ++ c :: tail) = front ++ c :: trimEnd tail := by
  have stop : ¬ isBlank c = true := by rw [solid]; exact Bool.false_ne_true
  have turned : (front ++ c :: tail).reverse = tail.reverse ++ c :: front.reverse := by simp
  rw [trimEnd, dropEndWhile, turned, List.dropWhile_append]
  split
  · next nothing =>
    rw [List.dropWhile_cons_of_neg stop, trimEnd, dropEndWhile, List.isEmpty_iff.mp nothing]
    simp
  · rw [trimEnd, dropEndWhile]
    simp

/-- What is trimmed at the end are blanks. -/
theorem exists_trimEnd_append (s : Text) : ∃ blanks, isBlankText blanks = true ∧
    s = trimEnd s ++ blanks := by
  refine ⟨(s.reverse.takeWhile isBlank).reverse, ?_, ?_⟩
  · exact List.all_eq_true.mpr fun c member => List.mem_takeWhile_imp (List.mem_reverse.mp member)
  · rw [trimEnd, dropEndWhile, ← List.reverse_append, List.takeWhile_append_dropWhile,
      List.reverse_reverse]

/-- Blanks at the end do not matter to a text that will be trimmed. -/
theorem trim_trimEnd (s : Text) : trim (trimEnd s) = trim s := by
  obtain ⟨blanks, blank, whole⟩ := exists_trimEnd_append s
  conv_rhs => rw [whole, trim_append_right blank]

/-- It does not matter at which end a text is trimmed first. -/
theorem trimStart_trimEnd (s : Text) : trimStart (trimEnd s) = trim s := by
  have blank : isBlankText (s.takeWhile isBlank) = true := List.all_takeWhile
  have whole : s = s.takeWhile isBlank ++ trimStart s := List.takeWhile_append_dropWhile.symm
  cases kept : trimStart s with
  | nil =>
    rw [kept, List.append_nil] at whole
    rw [← whole] at blank
    rw [trimEnd_of_isBlankText blank, trim_of_isBlankText blank]
    rfl
  | cons c rest =>
    have solid : isBlank c = false := by
      have stopped := List.head?_dropWhile_not isBlank s
      rw [← trimStart, kept] at stopped
      simpa using stopped
    have stop : ¬ isBlank c = true := by rw [solid]; exact Bool.false_ne_true
    rw [kept] at whole
    rw [whole, trimEnd_append_cons solid, trimStart_append blank, trim_append_left blank, trim,
      trimStart,
      trimStart, List.dropWhile_cons_of_neg stop, List.dropWhile_cons_of_neg stop]
    exact (trimEnd_append_cons solid [] rest).symm

/-- A text is what is left of it when it is trimmed, between blanks. -/
theorem exists_blanks_trim (s : Text) : ∃ front back, isBlankText front = true ∧
    isBlankText back = true ∧
    s = front ++ trim s ++ back := by
  obtain ⟨back, blank, whole⟩ := exists_trimEnd_append (trimStart s)
  refine ⟨s.takeWhile isBlank, back, List.all_takeWhile, blank, ?_⟩
  rw [List.append_assoc, trim, ← whole]
  exact List.takeWhile_append_dropWhile.symm

theorem trim_trim (s : Text) : trim (trim s) = trim s := by
  obtain ⟨front, back, frontBlank, backBlank, whole⟩ := exists_blanks_trim s
  conv_rhs => rw [whole, trim_append_right backBlank, trim_append_left frontBlank]

theorem length_trim_le (s : Text) : (trim s).length ≤ s.length := by
  obtain ⟨front, back, -, -, whole⟩ := exists_blanks_trim s
  conv_rhs => rw [whole, List.append_assoc, List.length_append, List.length_append]
  omega

/-- Whether a text has something left when it is trimmed, and is left as it is. -/
structure IsTrimmed (s : Text) : Prop where
  present : s ≠ []
  trimmed : trim s = s

theorem IsTrimmed.exists_cons {s : Text} (solid : IsTrimmed s) :
    ∃ c rest, s = c :: rest ∧ isBlank c = false := by
  obtain ⟨c, rest, rfl⟩ := List.exists_cons_of_ne_nil solid.present
  refine ⟨c, rest, rfl, ?_⟩
  by_contra blank
  have shorter : (trim (c :: rest)).length ≤ rest.length := by
    rw [trim, trimStart, List.dropWhile_cons_of_pos (by simpa using blank)]
    exact Nat.le_trans (length_trimEnd_le _) (List.dropWhile_suffix _).length_le
  rw [solid.trimmed, List.length_cons] at shorter
  omega

theorem IsTrimmed.trimStart_append {s : Text} (solid : IsTrimmed s) (tail : Text) :
    trimStart (s ++ tail) = s ++ tail := by
  obtain ⟨c, rest, rfl, first⟩ := solid.exists_cons
  rw [List.cons_append, trimStart, List.dropWhile_cons_of_neg (by simp [first])]

theorem IsTrimmed.trimEnd_append {s : Text} (solid : IsTrimmed s) (front : Text) :
    trimEnd (front ++ s) = front ++ s := by
  have kept : trimEnd s = s := by
    rw [← solid.trimmed, trim, trimEnd_trimEnd]
  obtain ⟨c, rest, rfl, first⟩ := solid.exists_cons
  have tail : c :: trimEnd rest = c :: rest := (trimEnd_append_cons first [] rest).symm.trans kept
  rw [trimEnd_append_cons first, tail]

/-- What begins and ends with a trimmed text is trimmed, whatever stands between. -/
theorem IsTrimmed.append {first last : Text} (begins : IsTrimmed first) (ends : IsTrimmed last)
    (between : Text) : IsTrimmed (first ++ between ++ last) where
  present := by simp [begins.present]
  trimmed := by
    rw [trim, List.append_assoc, begins.trimStart_append, ← List.append_assoc, ends.trimEnd_append]

theorem isTrimmed_of_isIdentifier {name : Text} (identifier : isIdentifier name = true) :
    IsTrimmed name where
  present := by rintro rfl; cases identifier
  trimmed := trim_of_isIdentifier identifier

/-! ### Marks at the head of a trimmed text -/

/-- What is dropped from the end of a text does not reach into a head without such characters. -/
theorem dropEndWhile_append {test : Char → Bool} {head : Text} (solid : ∀ c ∈ head, test c = false)
    (tail : Text) : dropEndWhile test (head ++ tail) = head ++ dropEndWhile test tail := by
  have backwards : ∀ c ∈ head.reverse, test c = false := fun c member =>
    solid c (List.mem_reverse.mp member)
  rw [dropEndWhile, dropEndWhile, List.reverse_append, List.dropWhile_append]
  split
  · next nothing =>
    rw [dropWhile_of_forall backwards, List.isEmpty_iff.mp nothing, List.reverse_reverse,
      List.reverse_nil, List.append_nil]
  · rw [List.reverse_append, List.reverse_reverse]

theorem startsWith_iff {mark s : Text} : s.startsWith mark = true ↔ ∃ rest, s = mark ++ rest := by
  rw [startsWith, Option.isSome_iff_exists]
  exact exists_congr fun rest => after?_eq_some_iff

/-- What is dropped from the end of a text stands behind what is left. -/
theorem exists_dropEndWhile_append (test : Char → Bool) (s : Text) :
    ∃ dropped, s = dropEndWhile test s ++ dropped := by
  refine ⟨(s.reverse.takeWhile test).reverse, List.reverse_injective ?_⟩
  rw [dropEndWhile, List.reverse_append, List.reverse_reverse, List.reverse_reverse,
    List.takeWhile_append_dropWhile]

/-- A mark without blanks begins a trimmed text exactly when it begins the text without its first
blanks. -/
theorem startsWith_trim {mark : Text} (solid : mark.all (fun c => !isBlank c) = true) (s : Text) :
    (trim s).startsWith mark = (trimStart s).startsWith mark := by
  have each : ∀ c ∈ mark, isBlank c = false := by simpa using solid
  rw [Bool.eq_iff_iff, startsWith_iff, startsWith_iff]
  constructor
  · rintro ⟨rest, begins⟩
    obtain ⟨dropped, whole⟩ := exists_dropEndWhile_append isBlank (trimStart s)
    refine ⟨rest ++ dropped, ?_⟩
    rw [whole, ← List.append_assoc, ← begins]
    rfl
  · rintro ⟨rest, begins⟩
    exact ⟨trimEnd rest, by rw [trim, begins, trimEnd, dropEndWhile_append each, trimEnd]⟩

end Text

end LuauReference
