/-
This file proves that splitting a list is stable: what was split off is split no further, and the
parts with commas between them are split into the same parts again. The brackets of the text need
not be nested. All kinds of them share one depth, so the argument follows the depth and not the
single brackets. Where it is zero, the character in front does not matter, since the head of an
arrow could only close a bracket that is not open; so a part may be looked at as if it stood alone,
with or without the blanks around it. In no part does a separator stand outside of brackets, and
only the last one can leave a bracket open.
-/

import LuauReference.Declaration.Brackets
import LuauReference.Proofs.Text.Blank

namespace LuauReference

namespace Declaration

/-! ### Brackets and separators -/

/-- The brackets of all kinds. -/
def brackets : Text := "(\x7b[<)\x7d]>"

theorem mem_brackets {c : Char} (bracket : isOpening c = true ∨ isClosing c = true) :
    c ∈ brackets := by
  simp only [isOpening, isClosing, Bool.or_eq_true, beq_iff_eq] at bracket
  rcases bracket with (((rfl | rfl) | rfl) | rfl) | (((rfl | rfl) | rfl) | rfl)
  all_goals decide

/-- Whether the characters of a text separate the parts of a list: none is a bracket and none is
blank. -/
def areSeparators (separators : Text) : Bool :=
  separators.all fun c => !isOpening c && !isClosing c && !Text.isBlank c

theorem of_areSeparators {separators : Text} (plain : areSeparators separators = true) {c : Char}
    (listed : c ∈ separators) : isOpening c = false ∧ isClosing c = false ∧
    Text.isBlank c = false := by
  simpa [and_assoc] using List.all_eq_true.mp plain c listed

/-! ### The depth along a text -/

/-- The bracket depth at the end of a text, given the depth and the character before its head. -/
def depthAtEnd (depth : Nat) (previous : Option Char) : Text → Nat
  | [] => depth
  | c :: rest => depthAtEnd (depthAfter depth previous c) (some c) rest

/-- Whether no separator of a text stands outside of brackets, given the depth and the character
before its head. -/
def IsWhole (separators : Text) (depth : Nat) (previous : Option Char) : Text → Prop
  | [] => True
  | c :: rest =>
    ¬ (c ∈ separators ∧ depthAfter depth previous c = 0) ∧
      IsWhole separators (depthAfter depth previous c) (some c) rest

section

variable {separators s : Text} {depth : Nat} {previous other : Option Char} {c : Char}

theorem depthAfter_zero (previous : Option Char) (c : Char) :
    depthAfter 0 previous c = if isOpening c then 1 else 0 := by
  simp [depthAfter]

theorem depthAfter_of_isBlank (blank : Text.isBlank c = true) :
    depthAfter depth previous c = depth := by
  have solid : brackets.all (!Text.isBlank ·) = true := by decide
  have unbracketed : c ∉ brackets := fun member => by
    simpa [blank] using List.all_eq_true.mp solid c member
  have notOpening : isOpening c = false :=
    Bool.not_eq_true _ ▸ mt (mem_brackets ∘ Or.inl) unbracketed
  have notClosing : isClosing c = false :=
    Bool.not_eq_true _ ▸ mt (mem_brackets ∘ Or.inr) unbracketed
  simp [depthAfter, notOpening, notClosing]

/-- Outside of brackets the character before a text does not matter. -/
theorem depthAtEnd_zero : depthAtEnd 0 previous s = depthAtEnd 0 other s := by
  cases s with
  | nil => rfl
  | cons c rest => rw [depthAtEnd, depthAtEnd, depthAfter_zero, depthAfter_zero]

theorem IsWhole.behind (whole : IsWhole separators 0 previous s) (other : Option Char) :
    IsWhole separators 0 other s := by
  cases s with
  | nil => trivial
  | cons c rest =>
    rw [IsWhole, depthAfter_zero] at whole ⊢
    exact whole

/-! ### Blanks around a text -/

theorem IsWhole.of_append {t : Text} (whole : IsWhole separators depth previous (s ++ t)) :
    IsWhole separators depth previous s := by
  induction s generalizing depth previous with
  | nil => trivial
  | cons c rest inductionHypothesis => exact whole.imp_right inductionHypothesis

theorem IsWhole.of_blanks_append {blanks : Text} (blank : Text.isBlankText blanks = true)
    (whole : IsWhole separators 0 previous (blanks ++ s)) : IsWhole separators 0 none s := by
  induction blanks generalizing previous with
  | nil => exact whole.behind none
  | cons c rest inductionHypothesis =>
    obtain ⟨first, others⟩ := (Bool.and_eq_true _ _).mp blank
    have later := whole.2
    rw [depthAfter_of_isBlank first] at later
    exact inductionHypothesis others later

theorem depthAtEnd_blanks {blanks : Text} (blank : Text.isBlankText blanks = true) :
    depthAtEnd depth previous blanks = depth := by
  induction blanks generalizing previous with
  | nil => rfl
  | cons c rest inductionHypothesis =>
    obtain ⟨first, others⟩ := (Bool.and_eq_true _ _).mp blank
    rw [depthAtEnd, depthAfter_of_isBlank first, inductionHypothesis others]

theorem depthAtEnd_append_blanks {blanks : Text} (blank : Text.isBlankText blanks = true) :
    depthAtEnd depth previous (s ++ blanks) = depthAtEnd depth previous s := by
  induction s generalizing depth previous with
  | nil => exact depthAtEnd_blanks blank
  | cons c rest inductionHypothesis => exact inductionHypothesis

theorem depthAtEnd_blanks_append {blanks : Text} (blank : Text.isBlankText blanks = true) :
    depthAtEnd 0 previous (blanks ++ s) = depthAtEnd 0 none s := by
  induction blanks generalizing previous with
  | nil => exact depthAtEnd_zero
  | cons c rest inductionHypothesis =>
    obtain ⟨first, others⟩ := (Bool.and_eq_true _ _).mp blank
    rw [List.cons_append, depthAtEnd, depthAfter_of_isBlank first, inductionHypothesis others]

/-- A text that stands outside of brackets may be trimmed. -/
theorem IsWhole.trim (whole : IsWhole separators 0 none s) :
    IsWhole separators 0 none (Text.trim s) := by
  obtain ⟨front, back, frontBlank, -, same⟩ := Text.exists_blanks_trim s
  rw [same, List.append_assoc] at whole
  exact (whole.of_blanks_append frontBlank).of_append

theorem depthAtEnd_trim : depthAtEnd 0 none (Text.trim s) = depthAtEnd 0 none s := by
  obtain ⟨front, back, frontBlank, backBlank, same⟩ := Text.exists_blanks_trim s
  conv_rhs => rw [same, List.append_assoc, depthAtEnd_blanks_append frontBlank,
    depthAtEnd_append_blanks backBlank]

end

/-! ### Parts -/

/-- Whether texts are the parts of a list: no separator stands outside of brackets in one of them,
and only the last can leave a bracket open. -/
structure AreParts (separators : Text) (parts : List Text) : Prop where
  whole : ∀ part ∈ parts, IsWhole separators 0 none part
  level : parts.Pairwise fun part _ => depthAtEnd 0 none part = 0

section

variable {separators s : Text} {parts : List Text}

theorem AreParts.cons {first : Text} (whole : IsWhole separators 0 none first)
    (level : parts ≠ [] → depthAtEnd 0 none first = 0) (others : AreParts separators parts) :
    AreParts separators (first :: parts) where
  whole := List.forall_mem_cons.mpr ⟨whole, others.whole⟩
  level := List.pairwise_cons.mpr ⟨fun _ member => level (List.ne_nil_of_mem member), others.level⟩

theorem AreParts.trim (areParts : AreParts separators parts) :
    AreParts separators (parts.map Text.trim) where
  whole := List.forall_mem_map.mpr fun part member => (areParts.whole part member).trim
  level := List.pairwise_map.mpr (areParts.level.imp fun level => depthAtEnd_trim.trans level)

theorem AreParts.filter (areParts : AreParts separators parts) (test : Text → Bool) :
    AreParts separators (parts.filter test) where
  whole part member := areParts.whole part (List.mem_of_mem_filter member)
  level := areParts.level.filter test

/-! ### Splitting -/

theorem rawParts_ne_nil (depth : Nat) (previous : Option Char) :
    rawParts separators depth previous s ≠ [] := by
  cases s with
  | nil => exact List.cons_ne_nil _ _
  | cons c rest =>
    rw [rawParts]
    split
    · exact List.cons_ne_nil _ _
    · cases rawParts separators (depthAfter depth previous c) (some c) rest <;>
        exact List.cons_ne_nil _ _

/-- A text without separators outside of brackets is a single part. -/
theorem rawParts_of_isWhole {depth : Nat} {previous : Option Char}
    (whole : IsWhole separators depth previous s) : rawParts separators depth previous s = [s] := by
  induction s generalizing depth previous with
  | nil => rfl
  | cons c rest inductionHypothesis =>
    obtain ⟨inside, later⟩ := whole
    rw [rawParts, inductionHypothesis later, if_neg (by simpa using inside), extendFirst]

/-- A text is a single part of itself, or all its parts are shorter. -/
theorem isWhole_or_shorter (depth : Nat) (previous : Option Char) :
    IsWhole separators depth previous s ∨
      ∀ part ∈ rawParts separators depth previous s, part.length < s.length := by
  induction s generalizing depth previous with
  | nil => exact Or.inl trivial
  | cons c rest inductionHypothesis =>
    rw [rawParts, List.length_cons]
    rcases inductionHypothesis (depthAfter depth previous c) (some c) with whole | shorter
    · by_cases outside : c ∈ separators ∧ depthAfter depth previous c = 0
      · rw [if_pos (by simpa using outside), rawParts_of_isWhole whole]
        exact Or.inr (by simp)
      · exact Or.inl ⟨outside, whole⟩
    · refine Or.inr ?_
      split
      · exact List.forall_mem_cons.mpr ⟨Nat.succ_pos _, fun part member =>
          Nat.lt_succ_of_lt (shorter part member)⟩
      · have present : rawParts separators (depthAfter depth previous c) (some c) rest ≠ [] :=
          rawParts_ne_nil _ _
        obtain ⟨first, others, same⟩ := List.exists_cons_of_ne_nil present
        rw [same] at shorter ⊢
        obtain ⟨head, tail⟩ := List.forall_mem_cons.mp shorter
        exact List.forall_mem_cons.mpr ⟨Nat.succ_lt_succ head, fun part member =>
          Nat.lt_succ_of_lt (tail part member)⟩

/-- What stands in front of the first separator outside of brackets is a whole text at the depth of
the beginning, and what follows it are the parts of a list. -/
theorem exists_rawParts (plain : areSeparators separators = true) (depth : Nat)
    (previous : Option Char) :
    ∃ first others, rawParts separators depth previous s = first :: others ∧
      IsWhole separators depth previous first ∧
      (others ≠ [] → depthAtEnd depth previous first = 0) ∧ AreParts separators others := by
  induction s generalizing depth previous with
  | nil => exact ⟨[], [], rfl, trivial, fun more => absurd rfl more, ⟨List.forall_mem_nil _, .nil⟩⟩
  | cons c rest inductionHypothesis =>
    obtain ⟨first, others, same, whole, level, areParts⟩ :=
      inductionHypothesis (depthAfter depth previous c) (some c)
    by_cases outside : c ∈ separators ∧ depthAfter depth previous c = 0
    · obtain ⟨notOpening, notClosing, -⟩ := of_areSeparators plain outside.1
      have kept : depthAfter depth previous c = depth := by
        simp [depthAfter, notOpening, notClosing]
      have zero : depth = 0 := kept.symm.trans outside.2
      rw [outside.2] at whole level
      refine ⟨[], first :: others, ?_, trivial, fun _ => zero,
        .cons (whole.behind none) ?_ areParts⟩
      · rw [rawParts, same, if_pos (by simpa using outside)]
      · exact fun more => depthAtEnd_zero.trans (level more)
    · refine ⟨c :: first, others, ?_, ⟨outside, whole⟩, level, areParts⟩
      rw [rawParts, same, if_neg (by simpa using outside), extendFirst]

theorem areParts_rawParts (plain : areSeparators separators = true) :
    AreParts separators (rawParts separators 0 none s) := by
  obtain ⟨first, others, same, whole, level, areParts⟩ := exists_rawParts plain (s := s) 0 none
  rw [same]
  exact .cons whole level areParts

section

variable (plain : areSeparators separators = true) {mark : Char} (listed : mark ∈ separators)

include plain listed

/-- A part that leaves no bracket open ends at the separator behind it. -/
theorem rawParts_append_separator {depth : Nat} {previous : Option Char}
    (whole : IsWhole separators depth previous s) (level : depthAtEnd depth previous s = 0)
    (rest : Text) :
    rawParts separators depth previous (s ++ mark :: rest) =
      s :: rawParts separators 0 (some mark) rest := by
  obtain ⟨notOpening, notClosing, -⟩ := of_areSeparators plain listed
  induction s generalizing depth previous with
  | nil =>
    have zero : depth = 0 := level
    have outside : depthAfter 0 previous mark = 0 := by simp [depthAfter, notOpening]
    rw [zero, List.nil_append, rawParts, outside, if_pos (by simpa using listed)]
  | cons c s inductionHypothesis =>
    obtain ⟨inside, later⟩ := whole
    rw [List.cons_append, rawParts, inductionHypothesis later level, if_neg (by simpa using inside),
      extendFirst]

/-- The parts of a list with separators between them are split again. -/
theorem rawParts_join {first : Text} (areParts : AreParts separators (first :: parts))
    (previous : Option Char) :
    rawParts separators 0 previous (Text.join [mark] (first :: parts)) = first :: parts := by
  induction parts generalizing first previous with
  | nil => exact rawParts_of_isWhole ((areParts.whole first List.mem_cons_self).behind previous)
  | cons second parts inductionHypothesis =>
    obtain ⟨whole, others⟩ := List.forall_mem_cons.mp areParts.whole
    obtain ⟨level, later⟩ := List.pairwise_cons.mp areParts.level
    have closed : depthAtEnd 0 previous first = 0 :=
      depthAtEnd_zero.trans (level second List.mem_cons_self)
    rw [Text.join, List.append_assoc, List.singleton_append,
      rawParts_append_separator plain listed (whole.behind previous) closed,
      inductionHypothesis ⟨others, later⟩]

theorem splitTopLevel_join_of_areParts (areParts : AreParts separators parts)
    (trimmed : ∀ part ∈ parts, Text.IsTrimmed part) :
    splitTopLevel separators (Text.join [mark] parts) = parts := by
  cases parts with
  | nil => rfl
  | cons first parts =>
    have kept : (first :: parts).map Text.trim = first :: parts :=
      (List.map_congr_left fun part member => (trimmed part member).trimmed).trans (List.map_id _)
    rw [splitTopLevel, rawParts_join plain listed areParts, kept, List.filter_eq_self]
    exact fun part member => by simpa using (trimmed part member).present

end

theorem isTrimmed_of_mem_splitTopLevel {part : Text} (member : part ∈ splitTopLevel separators s) :
    Text.IsTrimmed part := by
  obtain ⟨listed, present⟩ := List.mem_filter.mp member
  obtain ⟨raw, -, rfl⟩ := List.mem_map.mp listed
  exact ⟨by simpa using present, Text.trim_trim raw⟩

theorem areParts_splitTopLevel (plain : areSeparators separators = true) :
    AreParts separators (splitTopLevel separators s) :=
  (areParts_rawParts plain).trim.filter _

/-- A text splits to itself when it is trimmed and has no separator outside of brackets. -/
theorem splitTopLevel_eq_self_iff :
    splitTopLevel separators s = [s] ↔ Text.IsTrimmed s ∧ IsWhole separators 0 none s := by
  constructor
  · intro same
    have member : s ∈ splitTopLevel separators s := same ▸ List.mem_singleton_self s
    refine ⟨isTrimmed_of_mem_splitTopLevel member, ?_⟩
    obtain ⟨raw, inside, trimmed⟩ := List.mem_map.mp (List.mem_of_mem_filter member)
    refine (isWhole_or_shorter 0 none).resolve_right fun shorter => ?_
    have short := shorter raw inside
    rw [← trimmed] at short
    exact absurd (Text.length_trim_le raw) (Nat.not_le.mpr short)
  · rintro ⟨solid, whole⟩
    rw [splitTopLevel, rawParts_of_isWhole whole, List.map_singleton, solid.trimmed,
      List.filter_eq_self]
    exact List.forall_mem_singleton.mpr (by simpa using solid.present)

end

/-- Splitting a list is stable, whatever the brackets of the text are like. Every part is trimmed
and splits to itself, and the parts with commas between them are split into the same parts again. So
is every list of texts that split to themselves and leave no bracket open. -/
theorem splitting_is_stable (text : Text) :
    (∀ part ∈ splitTopLevel "," text, Text.IsTrimmed part ∧ splitTopLevel "," part = [part]) ∧
      splitTopLevel "," (Text.join "," (splitTopLevel "," text)) = splitTopLevel "," text ∧
      ∀ tokens : List Text,
        (∀ token ∈ tokens, splitTopLevel "," token = [token] ∧ depthAtEnd 0 none token = 0) →
        splitTopLevel "," (Text.join "," tokens) = tokens := by
  have plain : areSeparators "," = true := rfl
  have listed : ',' ∈ ",".toList := List.mem_singleton_self ','
  have trimmed : ∀ part ∈ splitTopLevel "," text, Text.IsTrimmed part := fun _ =>
    isTrimmed_of_mem_splitTopLevel
  have parts : AreParts "," (splitTopLevel "," text) := areParts_splitTopLevel plain
  refine ⟨fun part member => ?_, splitTopLevel_join_of_areParts plain listed parts trimmed,
    fun tokens sound => ?_⟩
  · exact ⟨trimmed part member,
      splitTopLevel_eq_self_iff.mpr ⟨trimmed part member, parts.whole part member⟩⟩
  · have single (token : Text) (member : token ∈ tokens) :=
      splitTopLevel_eq_self_iff.mp (sound token member).1
    refine splitTopLevel_join_of_areParts plain listed
      ⟨fun token member => (single token member).2, ?_⟩
      fun token member => (single token member).1
    exact List.pairwise_of_forall_mem_list fun token member _ _ => (sound token member).2

/-- A list in which an arrow stands in a bracket that is closed by another kind, a part is blank and
a bracket stays open; and a list of a function type and of a bracket that closes nothing. -/
theorem splitting_is_stable_unbalanced :
    splitTopLevel "," "x: [a, b -> c)>, , y<z, w" = ["x: [a, b -> c)>".toList, "y<z, w".toList] ∧
      splitTopLevel "," "y<z, w" = ["y<z, w".toList] ∧
      splitTopLevel "," "x: [a, b -> c)>,y<z, w" = ["x: [a, b -> c)>".toList, "y<z, w".toList] ∧
      splitTopLevel "," "f: (a, b) -> c,>d" = ["f: (a, b) -> c".toList, ">d".toList] := by
  have parts : splitTopLevel "," "x: [a, b -> c)>, , y<z, w" =
      ["x: [a, b -> c)>".toList, "y<z, w".toList] := by
    decide
  obtain ⟨single, again, tokens⟩ := splitting_is_stable "x: [a, b -> c)>, , y<z, w"
  rw [parts] at single again
  refine ⟨parts, (single _ (List.mem_cons_of_mem _ (List.mem_singleton_self _))).2, again, ?_⟩
  refine tokens ["f: (a, b) -> c".toList, ">d".toList] fun token member => ?_
  rcases List.mem_cons.mp member with rfl | last
  · decide
  · rw [List.mem_singleton.mp last]
    decide

end Declaration

end LuauReference
