/-
This file treats names: identifiers, and identifiers with dots between them. A name has no blank to
trim and no mark to be cut at, so it comes back unchanged from whatever prepares a text for being
looked up, and an identifier is read from the head of a text up to the first character that cannot
belong to it.
-/

import LuauReference.Proofs.Text.Pieces
import LuauReference.Text.Blank
import Mathlib.Data.List.TakeWhile

namespace LuauReference

namespace Text

/-! ### Heads of a text -/

theorem after?_eq_some_iff {mark s rest : Text} : after? mark s = some rest ↔ s = mark ++ rest := by
  induction mark generalizing s with
  | nil => rw [after?, Option.some.injEq, List.nil_append]
  | cons m mark inductionHypothesis =>
    cases s with
    | nil => exact iff_of_false (Option.some_ne_none rest).symm (List.cons_ne_nil _ _).symm
    | cons c tail =>
      rw [after?, List.cons_append, List.cons.injEq]
      split
      · next same => rw [inductionHypothesis, eq_comm (a := c), and_iff_right same]
      · next other =>
        exact iff_of_false (Option.some_ne_none rest).symm fun both => other both.1.symm

theorem after?_of_not_isPrefix {mark s : Text} (other : ¬ mark <+: s) : after? mark s = none := by
  cases found : after? mark s with
  | none => rfl
  | some rest => exact absurd ⟨rest, (after?_eq_some_iff.mp found).symm⟩ other

theorem append_of_cut? {mark s left right : Text} (found : cut? mark s = some (left, right)) :
    s = left ++ mark ++ right := by
  induction s generalizing left with
  | nil =>
    rw [cut?] at found
    split at found
    · next empty =>
      cases found
      rw [empty]
      rfl
    · cases found
  | cons c rest inductionHypothesis =>
    rw [cut?] at found
    split at found
    · next tail here =>
      cases found
      exact after?_eq_some_iff.mp here
    · obtain ⟨⟨front, back⟩, later, same⟩ := Option.map_eq_some_iff.mp found
      cases same
      rw [inductionHypothesis later]
      rfl

/-- A mark that occurs in a text has something before and something after it. -/
theorem exists_of_hasPart {mark s : Text} (present : hasPart s mark = true) :
    ∃ left right, s = left ++ mark ++ right := by
  obtain ⟨⟨left, right⟩, found⟩ := Option.isSome_iff_exists.mp present
  exact ⟨left, right, append_of_cut? found⟩

theorem before?_append (front mark : Text) : before? mark (front ++ mark) = some front := by
  rw [before?, List.reverse_append, after?_eq_some_iff.mpr rfl, Option.map_some,
    List.reverse_reverse]

theorem endsWith_iff {mark s : Text} : endsWith s mark = true ↔ mark <:+ s := by
  constructor
  · intro present
    rw [endsWith, before?, Option.isSome_map] at present
    obtain ⟨rest, found⟩ := Option.isSome_iff_exists.mp present
    refine ⟨rest.reverse, List.reverse_injective ?_⟩
    rw [after?_eq_some_iff.mp found, List.reverse_append, List.reverse_reverse]
  · rintro ⟨front, rfl⟩
    rw [endsWith, before?_append, Option.isSome_some]

theorem cut?_of_notMem {mark : Char} {s : Text} (missing : mark ∉ s) : cut? [mark] s = none := by
  induction s with
  | nil => rfl
  | cons c rest inductionHypothesis =>
    obtain ⟨other, later⟩ := List.ne_and_not_mem_of_not_mem_cons missing
    rw [cut?, after?, if_neg other, inductionHypothesis later]
    rfl

/-- A text is cut at the first mark. -/
theorem cut?_append_cons {mark : Char} {left : Text} (missing : mark ∉ left) (right : Text) :
    cut? [mark] (left ++ mark :: right) = some (left, right) := by
  induction left with
  | nil => rw [List.nil_append, cut?, after?, if_pos rfl, after?]
  | cons c rest inductionHypothesis =>
    obtain ⟨other, later⟩ := List.ne_and_not_mem_of_not_mem_cons missing
    rw [List.cons_append, cut?, after?, if_neg other, inductionHypothesis later, Option.map_some]

theorem cutLast?_of_notMem {mark : Char} {s : Text} (missing : mark ∉ s) :
    cutLast? mark s = none := by
  rw [cutLast?, cut?_of_notMem (mt List.mem_reverse.mp missing)]

/-- A text is cut at the last mark. -/
theorem cutLast?_append_cons {mark : Char} {right : Text} (missing : mark ∉ right) (left : Text) :
    cutLast? mark (left ++ mark :: right) = some (left, right) := by
  have turned : (left ++ mark :: right).reverse = right.reverse ++ mark :: left.reverse := by simp
  rw [cutLast?, turned, cut?_append_cons (mt List.mem_reverse.mp missing)]
  simp

/-! ### Word characters -/

theorem isWordChar_of_isWordStart {c : Char} (start : isWordStart c = true) :
    isWordChar c = true := by
  rw [isWordStart, Bool.or_eq_true] at start
  rw [isWordChar, Char.isAlphanum, Bool.or_eq_true, Bool.or_eq_true]
  rcases start with letter | underscore
  · exact Or.inl (Or.inl letter)
  · exact Or.inr underscore

theorem toNat_of_isWordChar {c : Char} (word : isWordChar c = true) :
    48 ≤ c.toNat ∧ c.toNat ≤ 122 := by
  unfold isWordChar Char.isAlphanum Char.isAlpha Char.isUpper Char.isLower Char.isDigit at word
  simp only [UInt32.le_iff_toNat_le, Bool.or_eq_true, Bool.and_eq_true, decide_eq_true_eq,
    beq_iff_eq] at word
  change (((65 ≤ c.toNat ∧ c.toNat ≤ 90) ∨ (97 ≤ c.toNat ∧ c.toNat ≤ 122)) ∨
    (48 ≤ c.toNat ∧ c.toNat ≤ 57)) ∨ c = '_' at word
  rcases word with letterOrDigit | rfl
  · omega
  · decide

theorem isBlank_of_isWordChar {c : Char} (word : isWordChar c = true) : isBlank c = false := by
  have bounds := toNat_of_isWordChar word
  simp only [isBlank, blankRanges, List.any_cons, List.any_nil, Bool.or_false, Bool.or_eq_false_iff,
    Bool.and_eq_false_iff, decide_eq_false_iff_not]
  omega

/-! ### Identifiers -/

/-- Whether a text is an identifier. -/
def isIdentifier : Text → Bool
  | [] => false
  | c :: rest => isWordStart c && rest.all isWordChar

theorem exists_cons_of_isIdentifier {name : Text} (identifier : isIdentifier name = true) :
    ∃ c rest, name = c :: rest ∧ isWordStart c = true := by
  cases name with
  | nil => cases identifier
  | cons c rest =>
    rw [isIdentifier, Bool.and_eq_true] at identifier
    exact ⟨c, rest, rfl, identifier.1⟩

theorem isWordChar_of_mem {name : Text} (identifier : isIdentifier name = true) :
    ∀ c ∈ name, isWordChar c = true := by
  cases name with
  | nil => exact List.forall_mem_nil _
  | cons c rest =>
    rw [isIdentifier, Bool.and_eq_true, List.all_eq_true] at identifier
    exact List.forall_mem_cons.mpr ⟨isWordChar_of_isWordStart identifier.1, identifier.2⟩

theorem notMem_of_isIdentifier {name : Text} (identifier : isIdentifier name = true) {c : Char}
    (other : isWordChar c = false) : c ∉ name := fun member =>
  Bool.false_ne_true (other.symm.trans (isWordChar_of_mem identifier c member))

/-- An identifier ends before the first character that cannot belong to it. -/
theorem identifier?_append {name : Text} (identifier : isIdentifier name = true) {mark : Char}
    (other : isWordChar mark = false) (rest : Text) :
    identifier? (name ++ mark :: rest) = some (name, mark :: rest) := by
  cases name with
  | nil => cases identifier
  | cons c tail =>
    rw [isIdentifier, Bool.and_eq_true, List.all_eq_true] at identifier
    have stop : ¬ isWordChar mark = true := Bool.not_eq_true _ ▸ other
    rw [identifier?, List.cons_append, run?, if_pos identifier.1,
      List.takeWhile_append_of_pos identifier.2, List.dropWhile_append_of_pos identifier.2,
      List.takeWhile_cons_of_neg stop, List.dropWhile_cons_of_neg stop, List.append_nil]

theorem identifier?_of_isIdentifier {name : Text} (identifier : isIdentifier name = true) :
    identifier? name = some (name, []) := by
  cases name with
  | nil => cases identifier
  | cons c tail =>
    rw [isIdentifier, Bool.and_eq_true, List.all_eq_true] at identifier
    rw [identifier?, run?, if_pos identifier.1, List.takeWhile_eq_self_iff.mpr identifier.2,
      List.dropWhile_eq_nil_iff.mpr identifier.2]

theorem isIdentifier_of_identifier? {s name rest : Text}
    (found : identifier? s = some (name, rest)) :
    isIdentifier name = true ∧ s = name ++ rest := by
  cases s with
  | nil => cases found
  | cons c tail =>
    rw [identifier?, run?] at found
    split at found
    · next start =>
      obtain ⟨rfl, rfl⟩ := Prod.mk.inj (Option.some.inj found)
      rw [isIdentifier, start, Bool.true_and, List.cons_append, List.takeWhile_append_dropWhile]
      exact ⟨List.all_takeWhile, rfl⟩
    · cases found

/-! ### Names with dots -/

/-- Whether a text is made of identifiers with dots between them. -/
def isDotted (s : Text) : Bool :=
  (pieces '.' s).all isIdentifier

/-- A name without a dot is an identifier. -/
theorem isIdentifier_of_isDotted {name : Text} (dotted : isDotted name = true)
    (plain : '.' ∉ name) :
    isIdentifier name = true := by
  rw [isDotted, pieces_of_notMem plain, List.all_cons, List.all_nil, Bool.and_true] at dotted
  exact dotted

/-- What is neither a word character nor a dot does not occur in a name. -/
theorem notMem_of_isDotted {name : Text} (dotted : isDotted name = true) {c : Char}
    (other : isWordChar c = false) (noDot : c ≠ '.') : c ∉ name := by
  intro member
  obtain ⟨piece, inside, held⟩ := (exists_mem_pieces_iff noDot).mpr member
  exact notMem_of_isIdentifier (List.all_eq_true.mp dotted piece inside) other held

/-- A name begins like an identifier and has nothing but word characters and dots. -/
theorem exists_cons_of_isDotted {name : Text} (dotted : isDotted name = true) :
    ∃ c rest, name = c :: rest ∧ isWordStart c = true ∧
      ∀ d ∈ rest, (isWordChar d || d == '.') = true := by
  cases name with
  | nil => cases dotted
  | cons c rest =>
    refine ⟨c, rest, rfl, ?_, fun d member => ?_⟩
    · rw [isDotted, pieces] at dotted
      split at dotted
      · cases dotted
      · obtain ⟨piece, more, cut⟩ := List.exists_cons_of_ne_nil (pieces_ne_nil '.' rest)
        rw [cut, List.all_cons, isIdentifier, Bool.and_eq_true, Bool.and_eq_true] at dotted
        exact dotted.1.1
    · by_contra other
      rw [Bool.not_eq_true, Bool.or_eq_false_iff, beq_eq_false_iff_ne] at other
      exact notMem_of_isDotted dotted other.1 other.2 (List.mem_cons_of_mem c member)

/-! ### Names come back from trimming -/

theorem dropWhile_of_forall {test : Char → Bool} {s : Text} (fails : ∀ c ∈ s, test c = false) :
    s.dropWhile test = s := by
  cases s with
  | nil => rfl
  | cons c rest =>
    exact List.dropWhile_cons_of_neg (Bool.not_eq_true _ ▸ fails c List.mem_cons_self)

theorem trim_of_forall {s : Text} (solid : ∀ c ∈ s, isBlank c = false) : trim s = s := by
  have backwards : ∀ c ∈ s.reverse, isBlank c = false := fun c member =>
    solid c (List.mem_reverse.mp member)
  rw [trim, trimStart, dropWhile_of_forall solid, trimEnd, dropEndWhile,
    dropWhile_of_forall backwards, List.reverse_reverse]

theorem trim_of_isDotted {name : Text} (dotted : isDotted name = true) : trim name = name := by
  refine trim_of_forall fun c member => ?_
  by_cases dot : c = '.'
  · rw [dot]
    decide
  · cases word : isWordChar c with
    | false => exact absurd member (notMem_of_isDotted dotted word dot)
    | true => exact isBlank_of_isWordChar word

theorem trim_of_isIdentifier {name : Text} (identifier : isIdentifier name = true) :
    trim name = name :=
  trim_of_forall fun c member => isBlank_of_isWordChar (isWordChar_of_mem identifier c member)

end Text

end LuauReference
