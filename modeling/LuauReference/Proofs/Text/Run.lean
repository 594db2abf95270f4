/-
This file treats the runs of a character: the places where so many of it stand together, with no
more right before and behind. The lengths of the runs are read off from left to right with a
counter. What is proved of the counter is proved for the text with as many of the character in front
as it has counted, so that a run that the text begins in the middle of is a run like all others.
-/

import LuauReference.Proofs.Text.Cut

namespace LuauReference

namespace Text

/-- Whether exactly so many of a character stand together in a text, with no more of it right before
and behind. -/
def HasRun (mark : Char) (length : Nat) (s : Text) : Prop :=
  0 < length ∧ ∃ front back, s = front ++ List.replicate length mark ++ back ∧
    front.getLast? ≠ some mark ∧ back.head? ≠ some mark

/-- The lengths of the runs of a character, in order, given how many of it stand right before the
text. -/
def runsFrom (mark : Char) (pending : Nat) : Text → List Nat
  | [] => if pending = 0 then [] else [pending]
  | c :: rest =>
    if c = mark then runsFrom mark (pending + 1) rest
    else if pending = 0 then runsFrom mark 0 rest
    else pending :: runsFrom mark 0 rest

/-- The lengths of the runs of a character in a text, in order. -/
def runs (mark : Char) (s : Text) : List Nat :=
  runsFrom mark 0 s

section

variable {mark : Char} {pending length : Nat}

theorem mem_runsFrom_nil : length ∈ runsFrom mark pending [] ↔ 0 < length ∧ length = pending := by
  rw [runsFrom]
  split
  · next none => simp [none]; omega
  · next some => simp; omega

theorem runsFrom_cons_self (s : Text) :
    runsFrom mark pending (mark :: s) = runsFrom mark (pending + 1) s := by
  rw [runsFrom, if_pos rfl]

theorem mem_runsFrom_cons_of_ne {c : Char} (other : c ≠ mark) {rest : Text} :
    length ∈ runsFrom mark pending (c :: rest) ↔
      0 < length ∧ length = pending ∨ length ∈ runsFrom mark 0 rest := by
  rw [runsFrom, if_neg other]
  split
  · next none => simp [none]; omega
  · next some =>
    rw [List.mem_cons]
    exact or_congr_left ⟨fun same => ⟨by omega, same⟩, And.right⟩

theorem runs_cons_of_ne {c : Char} (other : c ≠ mark) (s : Text) :
    runs mark (c :: s) = runs mark s := by
  rw [runs, runsFrom, if_neg other, if_pos rfl, runs]

/-- A run ends where another character stands. -/
theorem runsFrom_append_cons {c : Char} (other : c ≠ mark) (s rest : Text) :
    runsFrom mark pending (s ++ c :: rest) = runsFrom mark pending s ++ runsFrom mark 0 rest := by
  induction s generalizing pending with
  | nil =>
    simp only [List.nil_append, runsFrom, if_neg other]
    split <;> rfl
  | cons d s inductionHypothesis =>
    rw [List.cons_append, runsFrom, runsFrom, inductionHypothesis, inductionHypothesis]
    split
    · rfl
    · split <;> rfl

theorem runs_eq_nil_of_notMem {s : Text} (missing : mark ∉ s) : runs mark s = [] := by
  induction s with
  | nil => rfl
  | cons c rest inductionHypothesis =>
    obtain ⟨other, later⟩ := List.ne_and_not_mem_of_not_mem_cons missing
    rw [runs_cons_of_ne other.symm, inductionHypothesis later]

/-! ### Where runs are -/

/-- Where so many of an item stand in front of something else, there is one way to count them. -/
theorem eq_of_replicate_append {α : Type} {mark : α} {tail back : List α}
    (ends : tail.head? ≠ some mark)
    (behind : back.head? ≠ some mark)
    (whole : List.replicate pending mark ++ tail = List.replicate length mark ++ back) :
    length = pending := by
  induction pending generalizing length with
  | zero =>
    cases length with
    | zero => rfl
    | succ length => exact absurd (congrArg List.head? whole) ends
  | succ pending inductionHypothesis =>
    cases length with
    | zero => exact absurd (congrArg List.head? whole.symm) behind
    | succ length =>
      rw [List.replicate_succ, List.replicate_succ, List.cons_append, List.cons_append] at whole
      rw [inductionHypothesis (List.cons.inj whole).2]

/-- Nothing stands in front of a run at the head of a text. -/
theorem eq_nil_of_isPrefix_replicate {front : Text} (inside : front <+: List.replicate pending mark)
    (before : front.getLast? ≠ some mark) : front = [] := by
  rcases List.eq_nil_or_concat front with empty | ⟨init, last, same⟩
  · exact empty
  · rw [List.concat_eq_append] at same
    have held : last ∈ List.replicate pending mark := inside.subset (by simp [same])
    rw [same, List.getLast?_concat, List.eq_of_mem_replicate held] at before
    exact absurd rfl before

theorem getLast?_append_cons_iff {c : Char} (other : c ≠ mark) {first rest : Text} :
    (first ++ c :: rest).getLast? = some mark ↔ rest.getLast? = some mark := by
  rw [List.getLast?_append, List.getLast?_cons, Option.some_or, Option.some.injEq]
  cases rest.getLast? <;> simp [other]

/-- The counter meets the runs of the text with what it has counted in front. -/
theorem mem_runsFrom_iff {s : Text} :
    length ∈ runsFrom mark pending s ↔ HasRun mark length (List.replicate pending mark ++ s) := by
  unfold HasRun
  induction s generalizing pending with
  | nil =>
    rw [mem_runsFrom_nil]
    refine and_congr_right fun positive => ⟨?_, ?_⟩
    · rintro rfl
      exact ⟨[], [], by simp, by simp, by simp⟩
    · rintro ⟨front, back, whole, before, behind⟩
      have inside : front <+: List.replicate pending mark :=
        ⟨_, by rw [← List.append_assoc, ← whole, List.append_nil]⟩
      rw [eq_nil_of_isPrefix_replicate inside before, List.nil_append] at whole
      exact eq_of_replicate_append (by simp) behind whole
  | cons c rest inductionHypothesis =>
    by_cases same : c = mark
    · rw [same, runsFrom_cons_self, inductionHypothesis, List.replicate_succ', List.append_assoc,
        List.singleton_append]
    · rw [mem_runsFrom_cons_of_ne same, inductionHypothesis, List.replicate_zero, ← and_or_left]
      refine and_congr_right fun positive => ⟨?_, ?_⟩
      · rintro (rfl | ⟨front, back, whole, before, behind⟩)
        · exact ⟨[], c :: rest, by simp, by simp, by simpa using same⟩
        · refine ⟨List.replicate pending mark ++ c :: front, back, ?_, ?_, behind⟩
          · rw [List.nil_append] at whole
            simp [whole]
          · rwa [Ne, getLast?_append_cons_iff same]
      · rintro ⟨front, back, whole, before, behind⟩
        -- The run is the one that the character ends, or it begins behind the character.
        have other : c ∉ List.replicate length mark :=
          fun member => same (List.eq_of_mem_replicate member)
        rcases isPrefix_append_cons other ⟨back, whole.symm⟩ with here | ⟨more, rfl, below⟩
        · have inside := (List.prefix_append _ _).trans here
          rw [eq_nil_of_isPrefix_replicate inside before, List.nil_append] at whole
          exact Or.inl (eq_of_replicate_append (by simpa using same) behind whole)
        · rw [Ne, getLast?_append_cons_iff same] at before
          rw [List.append_assoc, List.append_assoc, List.append_cancel_left_eq, List.cons_append,
            List.cons.injEq] at whole
          exact Or.inr ⟨more, back, by simpa using whole.2, before, behind⟩

theorem mem_runs_iff {s : Text} : length ∈ runs mark s ↔ HasRun mark length s :=
  mem_runsFrom_iff

instance (s : Text) : Decidable (HasRun mark length s) :=
  decidable_of_iff _ mem_runs_iff

end

end Text

end LuauReference
