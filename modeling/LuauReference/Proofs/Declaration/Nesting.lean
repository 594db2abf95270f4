/-
This file proves that the ways of cutting code agree on brackets where the brackets of a text are
nested: each opening bracket is closed by its own kind. A list is split at none of the separators
inside such a text, a default does not begin in it, the parenthesis around it is found behind it,
and it leaves the depth of braces as it was. The cutting functions count brackets, in one depth for
all kinds or for one kind alone, while nesting is told by a stack of the closing brackets that a
text still waits for. So there is one statement about the stack for each of them, and all are about
one more character.
-/

import LuauReference.Declaration.Table
import LuauReference.Proofs.Declaration.Splitting

namespace LuauReference

namespace Declaration

/-! ### Nested texts -/

/-- The bracket that closes an opening one. -/
def closerOf (c : Char) : Char :=
  match c with
  | '(' => ')'
  | '\x7b' => '\x7d'
  | '[' => ']'
  | _ => '>'

/-- The closing brackets that a text waits for after one more character, the innermost first. There
are none where a bracket is closed by one of another kind or where a mark stands outside of all
brackets. -/
def awaitedAfter? (marks awaited : Text) (previous : Option Char) (c : Char) : Option Text :=
  if isOpening c then some (closerOf c :: awaited)
  else if isClosing c && !isArrowHead previous c then
    if awaited.head? = some c then some awaited.tail else none
  else if awaited.isEmpty && List.elem c marks then none
  else some awaited

/-- The closing brackets that a text waits for at its end, given those at its head and the character
before it. -/
def awaited? (marks awaited : Text) (previous : Option Char) : Text → Option Text
  | [] => some awaited
  | c :: rest =>
    (awaitedAfter? marks awaited previous c).bind fun inner => awaited? marks inner (some c) rest

/-- Whether the brackets of a text are nested and none of the marks stands outside of them. -/
def IsNested (marks s : Text) : Prop :=
  awaited? marks [] none s = some []

instance (marks s : Text) : Decidable (IsNested marks s) :=
  inferInstanceAs (Decidable (awaited? marks [] none s = some []))

/-! ### One character -/

/-- What a character may be to the brackets that are awaited. -/
inductive Awaits (marks : Text) (previous : Option Char) (c : Char) : Text → Text → Prop
  | opens (awaited : Text) (opening : isOpening c = true) :
    Awaits marks previous c awaited (closerOf c :: awaited)
  | closes (outer : Text) (notOpening : isOpening c = false) (closing : isClosing c = true)
    (noArrow : isArrowHead previous c = false) : Awaits marks previous c (c :: outer) outer
  | plain (awaited : Text) (notOpening : isOpening c = false)
    (notClosing : (isClosing c && !isArrowHead previous c) = false)
    (unmarked : awaited = [] → c ∉ marks) : Awaits marks previous c awaited awaited

theorem awaits_of_awaitedAfter? {marks awaited inner : Text} {previous : Option Char} {c : Char}
    (found : awaitedAfter? marks awaited previous c = some inner) :
    Awaits marks previous c awaited inner := by
  rw [awaitedAfter?] at found
  split at found
  · next opening =>
    cases found
    exact .opens _ opening
  · next notOpening =>
    rw [Bool.not_eq_true] at notOpening
    split at found
    · next closing =>
      rw [Bool.and_eq_true, Bool.not_eq_true'] at closing
      obtain ⟨first, same⟩ := Option.ite_none_right_eq_some.mp found
      cases same
      obtain ⟨outer, rfl⟩ := List.head?_eq_some_iff.mp first
      exact .closes _ notOpening closing.1 closing.2
    · next notClosing =>
      rw [Bool.not_eq_true] at notClosing
      obtain ⟨unmarked, same⟩ := Option.ite_none_left_eq_some.mp found
      cases same
      refine .plain _ notOpening notClosing fun outside member => unmarked ?_
      simp [outside, member]

theorem Awaits.eq_some {marks awaited inner : Text} {previous : Option Char} {c : Char}
    (step : Awaits marks previous c awaited inner) :
    awaitedAfter? marks awaited previous c = some inner := by
  cases step with
  | opens awaited opening => rw [awaitedAfter?, if_pos opening]
  | closes outer notOpening closing noArrow => simp [awaitedAfter?, notOpening, closing, noArrow]
  | plain awaited notOpening notClosing unmarked =>
    cases awaited with
    | nil => simp [awaitedAfter?, notOpening, notClosing, unmarked]
    | cons closer outer => simp [awaitedAfter?, notOpening, notClosing]

section

variable {marks awaited inner : Text} {previous : Option Char} {c : Char}

/-- The number of awaited brackets is the depth. -/
theorem Awaits.length (step : Awaits marks previous c awaited inner) :
    depthAfter awaited.length previous c = inner.length := by
  cases step with
  | opens awaited opening => rw [depthAfter, if_pos opening, List.length_cons]
  | closes outer notOpening closing noArrow => simp [depthAfter, notOpening, closing, noArrow]
  | plain awaited notOpening notClosing unmarked => simp [depthAfter, notOpening, notClosing]

/-- A mark that closes no bracket stands inside of one. -/
theorem Awaits.inside (step : Awaits marks previous c awaited inner) (marked : c ∈ marks)
    (notClosing : isClosing c = false) : inner ≠ [] := by
  cases step with
  | opens awaited opening => exact List.cons_ne_nil _ _
  | closes outer notOpening closing noArrow => exact absurd closing (by rw [notClosing]; decide)
  | plain awaited notOpening notClosing unmarked => exact fun outside => unmarked outside marked

theorem closerOf_eq_iff {opener : Char} (opens : isOpening opener = true)
    (opening : isOpening c = true) :
    closerOf c = closerOf opener ↔ c = opener := by
  simp only [isOpening, Bool.or_eq_true, beq_iff_eq] at opens opening
  rcases opens with ((rfl | rfl) | rfl) | rfl
  all_goals
    rcases opening with ((rfl | rfl) | rfl) | rfl
    all_goals decide

theorem isClosing_closerOf (c : Char) : isClosing (closerOf c) = true := by
  unfold closerOf
  split <;> rfl

theorem isOpening_of_isClosing (closing : isClosing c = true) : isOpening c = false := by
  simp only [isClosing, Bool.or_eq_true, beq_iff_eq] at closing
  rcases closing with ((rfl | rfl) | rfl) | rfl
  all_goals rfl

/-- The brackets of one kind are counted right, but for angle brackets, which arrows have as
well. -/
theorem Awaits.count (step : Awaits marks previous c awaited inner) (opener : Char)
    (opens : isOpening opener = true) (notAngle : closerOf opener ≠ '>') :
    inner.count (closerOf opener) + [c].count (closerOf opener) =
      awaited.count (closerOf opener) + [c].count opener := by
  have closed : isOpening (closerOf opener) = false :=
    isOpening_of_isClosing (isClosing_closerOf opener)
  simp only [List.count_singleton, beq_eq_decide]
  cases step with
  | opens awaited opening =>
    have notCloser : c ≠ closerOf opener := fun same => by simp [same, closed] at opening
    simp only [List.count_cons, beq_eq_decide, closerOf_eq_iff opens opening, decide_eq_true_eq,
      if_neg notCloser, Nat.add_zero]
  | closes outer notOpening closing noArrow =>
    have notOpener : c ≠ opener := fun same => by simp [same, opens] at notOpening
    simp only [List.count_cons, beq_eq_decide, decide_eq_true_eq, if_neg notOpener, Nat.add_zero]
  | plain awaited notOpening notClosing unmarked =>
    have notOpener : c ≠ opener := fun same => by simp [same, opens] at notOpening
    have notCloser : c ≠ closerOf opener := fun same => by
      simp [same, isClosing_closerOf, isArrowHead, notAngle] at notClosing
    simp only [decide_eq_true_eq, if_neg notOpener, if_neg notCloser]

end

/-! ### Texts -/

section

variable {marks awaited inner : Text} {previous : Option Char} {s : Text}

theorem awaited?_cons {c : Char} :
    awaited? marks awaited previous (c :: s) = some inner ↔
      ∃ next, Awaits marks previous c awaited next ∧
        awaited? marks next (some c) s = some inner := by
  rw [awaited?, Option.bind_eq_some_iff]
  exact exists_congr fun next =>
    and_congr_left fun _ => ⟨awaits_of_awaitedAfter?, Awaits.eq_some⟩

/-- Outside of all brackets the character before a text does not matter, since no arrow can begin
there whose head would be taken for a bracket. -/
theorem IsNested.behind (nested : IsNested marks s) (previous : Option Char) :
    awaited? marks [] previous s = some [] := by
  cases s with
  | nil => rfl
  | cons c rest =>
    obtain ⟨next, step, later⟩ := awaited?_cons.mp nested
    refine awaited?_cons.mpr ⟨next, ?_, later⟩
    cases step with
    | opens awaited opening => exact .opens _ opening
    | plain awaited notOpening notClosing unmarked =>
      have open_ : isClosing c = false := by simpa [isArrowHead] using notClosing
      exact .plain _ notOpening (by rw [open_, Bool.false_and]) unmarked

theorem awaited?_append {t : Text} (closed : awaited? marks awaited previous s = some [])
    (nested : IsNested marks t) : awaited? marks awaited previous (s ++ t) = some [] := by
  induction s generalizing awaited previous with
  | nil =>
    cases closed
    exact nested.behind previous
  | cons c rest inductionHypothesis =>
    obtain ⟨next, step, later⟩ := awaited?_cons.mp closed
    exact awaited?_cons.mpr ⟨next, step, inductionHypothesis later⟩

theorem IsNested.append {t : Text} (first : IsNested marks s) (second : IsNested marks t) :
    IsNested marks (s ++ t) :=
  awaited?_append first second

/-- A nested text does not end with a mark, unless the mark closes a bracket. -/
theorem IsNested.last_notMem {c : Char} (nested : IsNested marks (s ++ [c]))
    (notClosing : isClosing c = false) : c ∉ marks := by
  suffices general : ∀ awaited previous, awaited? marks awaited previous (s ++ [c]) = some [] →
      c ∉ marks from general [] none nested
  clear nested
  induction s with
  | nil =>
    intro awaited previous closed marked
    obtain ⟨next, step, same⟩ := awaited?_cons.mp closed
    cases same
    exact step.inside marked notClosing rfl
  | cons d rest inductionHypothesis =>
    intro awaited previous closed
    obtain ⟨next, -, later⟩ := awaited?_cons.mp closed
    exact inductionHypothesis _ _ later

/-- A text without brackets and marks is nested. -/
theorem isNested_of_forall
    (plain : ∀ c ∈ s, isOpening c = false ∧ isClosing c = false ∧ c ∉ marks) :
    IsNested marks s := by
  induction s with
  | nil => rfl
  | cons c rest inductionHypothesis =>
    obtain ⟨⟨notOpening, notClosing, unmarked⟩, others⟩ := List.forall_mem_cons.mp plain
    refine awaited?_cons.mpr ⟨[], .plain _ notOpening ?_ fun _ => unmarked, ?_⟩
    · rw [notClosing, Bool.false_and]
    · exact (inductionHypothesis others).behind (some c)

/-- A text of characters of a class that has neither brackets nor marks is nested. -/
theorem isNested_of_class {test : Char → Bool} (unbracketed : brackets.all (!test ·) = true)
    (unmarked : marks.all (!test ·) = true) (inside : ∀ c ∈ s, test c = true) :
    IsNested marks s := by
  have other {c : Char} (member : c ∈ s) {list : Text} (fails : list.all (!test ·) = true) :
      c ∉ list := by
    intro listed
    have failed := List.all_eq_true.mp fails c listed
    rw [inside c member] at failed
    cases failed
  refine isNested_of_forall fun c member => ⟨?_, ?_, other member unmarked⟩
  · exact Bool.not_eq_true _ ▸ mt (mem_brackets ∘ Or.inl) (other member unbracketed)
  · exact Bool.not_eq_true _ ▸ mt (mem_brackets ∘ Or.inr) (other member unbracketed)

theorem isNested_of_isIdentifier {name : Text} (identifier : Text.isIdentifier name = true)
    (unmarked : marks.all (!Text.isWordChar ·) = true) : IsNested marks name :=
  isNested_of_class (by decide) unmarked (Text.isWordChar_of_mem identifier)

theorem isNested_join {separator : Text} (between : IsNested marks separator) {parts : List Text}
    (nested : ∀ part ∈ parts, IsNested marks part) :
    IsNested marks (Text.join separator parts) := by
  induction parts with
  | nil => rfl
  | cons first rest inductionHypothesis =>
    obtain ⟨head, others⟩ := List.forall_mem_cons.mp nested
    by_cases last : rest = []
    · rw [last]
      exact head
    · rw [Text.join_cons_of_ne_nil _ _ last]
      exact (head.append between).append (inductionHypothesis others)

/-- Fewer marks are outside of brackets as well. -/
theorem IsNested.mono {fewer : Text} (listed : fewer.all (List.elem · marks) = true)
    (nested : IsNested marks s) : IsNested fewer s := by
  have marked : ∀ c ∈ fewer, c ∈ marks := fun c member =>
    List.elem_iff.mp (List.all_eq_true.mp listed c member)
  suffices general : ∀ awaited previous, awaited? marks awaited previous s = some [] →
      awaited? fewer awaited previous s = some [] from general [] none nested
  clear nested
  induction s with
  | nil => exact fun _ _ closed => closed
  | cons c rest inductionHypothesis =>
    intro awaited previous closed
    obtain ⟨next, step, later⟩ := awaited?_cons.mp closed
    refine awaited?_cons.mpr ⟨next, ?_, inductionHypothesis _ _ later⟩
    cases step with
    | opens awaited opening => exact .opens _ opening
    | closes outer notOpening closing noArrow => exact .closes _ notOpening closing noArrow
    | plain awaited notOpening notClosing unmarked =>
      exact .plain _ notOpening notClosing fun outside => mt (marked c) (unmarked outside)

end

/-! ### Lists in brackets -/

section

variable {separators : Text} (plain : areSeparators separators = true)

include plain

/-- No separator stands outside of the brackets of a nested text, and none of them is left open. -/
theorem isWhole_of_awaited? {awaited s : Text} {previous : Option Char}
    (closed : awaited? separators awaited previous s = some []) :
    IsWhole separators awaited.length previous s ∧ depthAtEnd awaited.length previous s = 0 := by
  induction s generalizing awaited previous with
  | nil =>
    cases closed
    exact ⟨trivial, rfl⟩
  | cons c s inductionHypothesis =>
    obtain ⟨inner, step, later⟩ := awaited?_cons.mp closed
    rw [IsWhole, depthAtEnd, step.length]
    refine (inductionHypothesis later).imp_left fun whole => ⟨?_, whole⟩
    rintro ⟨separator, outside⟩
    exact step.inside separator (of_areSeparators plain separator).2.1
      (List.length_eq_zero_iff.mp outside)

theorem rawParts_of_isNested {s : Text} (nested : IsNested separators s) (previous : Option Char) :
    rawParts separators 0 previous s = [s] :=
  rawParts_of_isWhole (isWhole_of_awaited? plain (nested.behind previous)).1

/-- A part ends at the separator behind it. -/
theorem rawParts_separator {s : Text} (nested : IsNested separators s) {separator : Char}
    (listed : separator ∈ separators) (rest : Text) (previous : Option Char) :
    rawParts separators 0 previous (s ++ separator :: rest) =
      s :: rawParts separators 0 (some separator) rest :=
  have parts := isWhole_of_awaited? plain (nested.behind previous)
  rawParts_append_separator plain listed parts.1 parts.2 rest

theorem isNested_of_isBlankText {s : Text} (blank : Text.isBlankText s = true) :
    IsNested separators s := by
  refine isNested_of_class (by decide) ?_ (Text.isBlank_of_mem blank)
  exact List.all_eq_true.mpr fun c listed => by rw [(of_areSeparators plain listed).2.2]; rfl

/-- A list is split into its parts, whatever blanks stand around them. -/
theorem splitTopLevel_join {separator : Char} (listed : separator ∈ separators)
    {front pad back : Text}
    (frontBlank : Text.isBlankText front = true) (padBlank : Text.isBlankText pad = true)
    (backBlank : Text.isBlankText back = true) {parts : List Text}
    (sound : ∀ part ∈ parts, Text.IsTrimmed part ∧ IsNested separators part) :
    splitTopLevel separators (front ++ Text.join (separator :: pad) parts ++ back) = parts := by
  have padded {s : Text} (blank : Text.isBlankText s = true) := isNested_of_isBlankText plain blank
  cases parts with
  | nil =>
    rw [Text.join, List.append_nil, splitTopLevel,
      rawParts_of_isNested plain ((padded frontBlank).append (padded backBlank)),
      List.map_singleton,
      Text.trim_append_left frontBlank, Text.trim_of_isBlankText backBlank]
    rfl
  | cons first rest =>
    suffices trimmed : ∀ previous, (rawParts separators 0 previous
        (front ++ Text.join (separator :: pad) (first :: rest) ++ back)).map Text.trim =
          first :: rest by
      rw [splitTopLevel, trimmed, List.filter_eq_self]
      exact fun part member => by simpa using (sound part member).1.present
    induction rest generalizing first front with
    | nil =>
      intro previous
      obtain ⟨solid, nested⟩ := sound first List.mem_cons_self
      have whole := ((padded frontBlank).append nested).append (padded backBlank)
      rw [Text.join, rawParts_of_isNested plain whole, List.map_singleton,
        Text.trim_append_right backBlank,
        Text.trim_append_left frontBlank, solid.trimmed]
    | cons second rest inductionHypothesis =>
      intro previous
      obtain ⟨⟨solid, nested⟩, others⟩ := List.forall_mem_cons.mp sound
      have whole : front ++ Text.join (separator :: pad) (first :: second :: rest) ++ back =
          (front ++ first) ++ separator ::
            (pad ++ Text.join (separator :: pad) (second :: rest) ++ back) := by
        simp only [Text.join, List.append_assoc, List.cons_append]
      rw [whole, rawParts_separator plain ((padded frontBlank).append nested) listed, List.map_cons,
        inductionHypothesis padBlank second others, Text.trim_append_left frontBlank,
        solid.trimmed]

end

/-! ### Defaults -/

/-- A default does not begin in a text without an equals sign outside of brackets. -/
theorem beforeDefault_of_isNested {marks s : Text} (marked : '=' ∈ marks)
    (nested : IsNested marks s) :
    beforeDefault 0 none s = s := by
  suffices general : ∀ awaited previous, awaited? marks awaited previous s = some [] →
      beforeDefault awaited.length previous s = s from general [] none nested
  clear nested
  induction s with
  | nil => exact fun _ _ _ => rfl
  | cons c rest inductionHypothesis =>
    intro awaited previous closed
    obtain ⟨inner, step, later⟩ := awaited?_cons.mp closed
    have kept : (c == '=' && awaited.length == 0) = false := by
      cases step with
      | opens awaited opening =>
        have other : c ≠ '=' := by rintro rfl; cases opening
        simp [other]
      | closes outer notOpening closing noArrow => simp
      | plain awaited notOpening notClosing unmarked =>
        by_cases same : c = '='
        · simpa [same] using fun outside => unmarked outside (same ▸ marked)
        · simp [same]
    rw [beforeDefault, kept, if_neg Bool.false_ne_true, step.length, inductionHypothesis _ _ later]

/-! ### One kind of brackets -/

/-- The parenthesis around a nested text is found behind it. -/
theorem closeParens?_append {s : Text} (nested : IsNested [] s) (tail : Text) :
    closeParens? 1 (s ++ ')' :: tail) = some (s, tail) := by
  suffices general : ∀ awaited previous, awaited? [] awaited previous s = some [] →
      closeParens? (awaited.count ')' + 1) (s ++ ')' :: tail) = some (s, tail) from general
        [] none nested
  clear nested
  induction s with
  | nil =>
    intro awaited previous closed
    cases closed
    rfl
  | cons c rest inductionHypothesis =>
    intro awaited previous closed
    obtain ⟨inner, step, later⟩ := awaited?_cons.mp closed
    have counted : inner.count ')' + [c].count ')' = awaited.count ')' + [c].count '(' :=
      step.count '(' rfl (by decide)
    have behind := inductionHypothesis _ _ later
    rw [List.cons_append, closeParens?]
    split
    · next opens =>
      subst opens
      have deeper : inner.count ')' = awaited.count ')' + 1 := counted
      rw [← deeper, behind, Option.map_some]
    · next notOpening =>
      rw [List.count_singleton (a := '('), beq_false_of_ne notOpening] at counted
      split
      · next closes =>
        subst closes
        have deeper : inner.count ')' + 1 = awaited.count ')' := counted
        rw [← deeper, if_neg (by omega), Nat.add_sub_cancel, behind, Option.map_some]
      · next notClosing =>
        rw [List.count_singleton, beq_false_of_ne notClosing] at counted
        have level : inner.count ')' = awaited.count ')' := counted
        rw [← level, behind, Option.map_some]

/-- A nested text leaves the depth of braces as it is. -/
theorem braceBalance_of_isNested {marks s : Text} (nested : IsNested marks s) :
    braceBalance s = 0 := by
  suffices general : ∀ awaited previous, awaited? marks awaited previous s = some [] →
      s.count '\x7d' = awaited.count '\x7d' + s.count '\x7b' by
    rw [braceBalance, Text.tally, Text.tally, general [] none nested, List.count_nil, Nat.zero_add,
      Int.sub_self]
  clear nested
  induction s with
  | nil =>
    intro awaited previous closed
    cases closed
    rfl
  | cons c rest inductionHypothesis =>
    intro awaited previous closed
    obtain ⟨inner, step, later⟩ := awaited?_cons.mp closed
    have counted : inner.count '\x7d' + [c].count '\x7d' =
        awaited.count '\x7d' + [c].count '\x7b' :=
      step.count '\x7b' rfl (by decide)
    rw [← List.singleton_append, List.count_append, List.count_append,
      inductionHypothesis _ _ later]
    omega

theorem braceBalance_of_isBlankText {s : Text} (blank : Text.isBlankText s = true) :
    braceBalance s = 0 := by
  have nested : IsNested [] s := isNested_of_isBlankText rfl blank
  exact braceBalance_of_isNested nested

theorem braceBalance_append (s t : Text) :
    braceBalance (s ++ t) = braceBalance s + braceBalance t := by
  simp only [braceBalance, Text.tally, List.count_append]
  omega

end Declaration

end LuauReference
