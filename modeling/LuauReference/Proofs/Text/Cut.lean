/-
This file says where a text is cut. A mark that occurs in a text has a first occurrence, and the
text is cut there: no occurrence begins further to the left. A mark does not occur in a text that
cannot be cut. A mark of one character is not in what stands in front of its first occurrence, nor
in what follows its last.
-/

import LuauReference.Proofs.Text.Identifier

namespace LuauReference

namespace Text

/-- Whether a text has its first occurrence of a mark between the two given sides. -/
structure IsCut (mark s left right : Text) : Prop where
  whole : s = left ++ mark ++ right
  first : ∀ front, front ++ mark <+: s → left.length ≤ front.length

theorem not_isInfix_of_cut? {mark s : Text} (found : cut? mark s = none) : ¬ mark <:+: s := by
  rintro ⟨front, back, whole⟩
  induction s generalizing front with
  | nil =>
    obtain ⟨_, empty⟩ := List.append_eq_nil_iff.mp (List.append_eq_nil_iff.mp whole).1
    rw [cut?, if_pos empty] at found
    cases found
  | cons c rest inductionHypothesis =>
    rw [cut?] at found
    split at found
    · cases found
    · next other =>
      cases front with
      | nil =>
        rw [List.nil_append] at whole
        rw [after?_eq_some_iff.mpr whole.symm] at other
        cases other
      | cons d front =>
        exact inductionHypothesis (Option.map_eq_none_iff.mp found) front (List.cons.inj whole).2

theorem cut?_of_not_isInfix {mark s : Text} (missing : ¬ mark <:+: s) : cut? mark s = none := by
  cases found : cut? mark s with
  | none => rfl
  | some sides => exact absurd ⟨sides.1, sides.2, (append_of_cut? found).symm⟩ missing

/-- A text is cut at the first occurrence of the mark. -/
theorem isCut_of_cut? {mark s left right : Text} (found : cut? mark s = some (left, right)) :
    IsCut mark s left right := by
  refine ⟨append_of_cut? found, ?_⟩
  induction s generalizing left with
  | nil =>
    rw [cut?, Option.ite_none_right_eq_some] at found
    obtain ⟨rfl, -⟩ := Prod.mk.inj (Option.some.inj found.2)
    exact fun front _ => Nat.zero_le _
  | cons c rest inductionHypothesis =>
    rintro front ⟨back, whole⟩
    rw [cut?] at found
    split at found
    · obtain ⟨rfl, -⟩ := Prod.mk.inj (Option.some.inj found)
      exact Nat.zero_le _
    · next other =>
      obtain ⟨⟨before, after⟩, later, same⟩ := Option.map_eq_some_iff.mp found
      cases same
      cases front with
      | nil =>
        rw [List.nil_append] at whole
        rw [after?_eq_some_iff.mpr whole.symm] at other
        cases other
      | cons d front =>
        exact Nat.succ_le_succ (inductionHypothesis later front ⟨back, (List.cons.inj whole).2⟩)

/-- A mark that occurs in a text has a first occurrence. -/
theorem exists_isCut {mark s : Text} (occurs : mark <:+: s) :
    ∃ left right, IsCut mark s left right := by
  cases found : cut? mark s with
  | none => exact absurd occurs (not_isInfix_of_cut? found)
  | some sides => exact ⟨sides.1, sides.2, isCut_of_cut? found⟩

/-- A text has one first occurrence of a mark. -/
theorem cut?_of_isCut {mark s left right : Text} (cut : IsCut mark s left right) :
    cut? mark s = some (left, right) := by
  cases found : cut? mark s with
  | none => exact absurd ⟨left, right, cut.whole.symm⟩ (not_isInfix_of_cut? found)
  | some sides =>
    obtain ⟨before, after⟩ := sides
    have other := isCut_of_cut? found
    have early := cut.first before ⟨after, other.whole.symm⟩
    have late := other.first left ⟨right, cut.whole.symm⟩
    have same : before ++ (mark ++ after) = left ++ (mark ++ right) := by
      rw [← List.append_assoc, ← List.append_assoc, ← other.whole, ← cut.whole]
    obtain ⟨rfl, rest⟩ := List.append_inj same (Nat.le_antisymm late early)
    rw [List.append_cancel_left rest]

theorem IsCut.tail {mark s left right : Text} {c : Char}
    (cut : IsCut mark (c :: s) (c :: left) right) :
    IsCut mark s left right where
  whole := (List.cons.inj cut.whole).2
  first front begins :=
    Nat.le_of_succ_le_succ (cut.first (c :: front) (List.cons_prefix_cons.mpr ⟨rfl, begins⟩))

/-- A text without the first character of a mark may stand in front of what is cut. -/
theorem cut?_append {first : Char} {front : Text} (missing : first ∉ front) (mark s : Text) :
    cut? (first :: mark) (front ++ s) =
      (cut? (first :: mark) s).map fun sides => (front ++ sides.1, sides.2) := by
  induction front with
  | nil => exact Option.map_id'.symm
  | cons c front inductionHypothesis =>
    obtain ⟨other, later⟩ := List.ne_and_not_mem_of_not_mem_cons missing
    rw [List.cons_append, cut?, after?, if_neg other, inductionHypothesis later, Option.map_map]
    rfl

/-- A mark without a character stands in front of it or begins behind it. -/
theorem isPrefix_append_cons {mark front first rest : Text} {c : Char} (other : c ∉ mark)
    (found : front ++ mark <+: first ++ c :: rest) :
    front ++ mark <+: first ∨ ∃ more, front = first ++ c :: more ∧ more ++ mark <+: rest := by
  obtain ⟨back, whole⟩ := found
  rcases List.append_eq_append_iff.mp whole with ⟨behind, before, _⟩ | ⟨inside, reached, ends⟩
  · exact Or.inl ⟨behind, before.symm⟩
  · cases inside with
    | nil =>
      rw [List.append_nil] at reached
      exact Or.inl (reached ▸ List.prefix_rfl)
    | cons d more =>
      obtain ⟨rfl, rest⟩ := List.cons.inj ends
      rcases List.append_eq_append_iff.mp reached with ⟨later, _, held⟩ | ⟨later, longer, held⟩
      · exact absurd (held ▸ List.mem_append_right later List.mem_cons_self) other
      · cases later with
        | nil =>
          have whole : mark = c :: more := held.symm
          exact absurd (whole ▸ List.mem_cons_self) other
        | cons e later =>
          obtain ⟨rfl, rfl⟩ := List.cons.inj held
          exact Or.inr ⟨later, longer, back, rest.symm⟩

/-- A mark without a character lies on one side of it. -/
theorem isInfix_append_cons_iff {mark : Text} {c : Char} (other : c ∉ mark) (first rest : Text) :
    mark <:+: first ++ c :: rest ↔ mark <:+: first ∨ mark <:+: rest := by
  constructor
  · rintro ⟨front, back, whole⟩
    rcases isPrefix_append_cons other ⟨back, whole⟩ with ⟨back, here⟩ | ⟨more, -, back, here⟩
    · exact Or.inl ⟨front, back, here⟩
    · exact Or.inr ⟨more, back, here⟩
  · rintro (here | here)
    · exact here.trans (List.prefix_append _ _).isInfix
    · exact here.trans ((List.suffix_cons c rest).trans (List.suffix_append _ _)).isInfix

/-! ### Marks of one character -/

section

variable {mark : Char} {s left right : Text}

theorem notMem_of_cut? (nothing : cut? [mark] s = none) : mark ∉ s := by
  intro member
  obtain ⟨front, back, rfl⟩ := List.append_of_mem member
  exact not_isInfix_of_cut? nothing ⟨front, back, by simp⟩

theorem cut?_eq_some_iff :
    cut? [mark] s = some (left, right) ↔ s = left ++ mark :: right ∧ mark ∉ left := by
  constructor
  · intro found
    have cut := isCut_of_cut? found
    have whole : s = left ++ mark :: right := by
      rw [cut.whole, List.append_assoc, List.singleton_append]
    refine ⟨whole, fun member => ?_⟩
    obtain ⟨front, back, rfl⟩ := List.append_of_mem member
    have early := cut.first front ⟨back ++ mark :: right, by simp [whole]⟩
    rw [List.length_append, List.length_cons] at early
    omega
  · rintro ⟨rfl, missing⟩
    exact cut?_append_cons missing right

/-- The last occurrence is the first one from behind. -/
theorem cutLast?_eq_some_iff :
    cutLast? mark s = some (left, right) ↔ s = left ++ mark :: right ∧ mark ∉ right := by
  constructor
  · intro found
    rw [cutLast?] at found
    split at found
    · next back front turned =>
      cases found
      obtain ⟨whole, missing⟩ := cut?_eq_some_iff.mp turned
      refine ⟨List.reverse_injective ?_, mt List.mem_reverse.mp missing⟩
      rw [whole]
      simp
    · cases found
  · rintro ⟨rfl, missing⟩
    exact cutLast?_append_cons missing left

/-- The last occurrence of a character is not in a text behind that has none. -/
theorem cutLast?_append {tail : Text} (missing : mark ∉ tail) (s : Text) :
    cutLast? mark (s ++ tail) = (cutLast? mark s).map fun sides => (sides.1, sides.2 ++ tail) := by
  rw [cutLast?, List.reverse_append, cut?_append (mt List.mem_reverse.mp missing), cutLast?]
  cases cut? [mark] s.reverse with
  | none => rfl
  | some sides => simp

end

end Text

end LuauReference
